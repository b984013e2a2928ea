import Cinnabar.Publication.Permits

/-! # Runs of the allowance -/

namespace Cinnabar.Publication

open PublicationAllowanceState List

inductive Life where
  | unborn
  | live (stage : PublicationPermitStage)
  | gone
deriving DecidableEq

def Life.moved (stage : PublicationPermitStage) : Life → Option Life
  | .live before => if before.next=some stage then some (.live stage) else none
  | _ => none

def Life.left : Life → Option Life
  | .live _ => some .gone
  | _ => none

def Life.admitted : Life → Option Life
  | .unborn => some (.live .meshReady)
  | _ => none

def Event.permit : Event → ℕ
  | .admitted permit => permit
  | .moved permit _ => permit
  | .left permit => permit

def Life.follow (life : Life) : Event → Option Life
  | .admitted _ => life.admitted
  | .moved _ stage => life.moved stage
  | .left _ => life.left

/-- What an event makes of one permit's life; `none` is an event out of order. -/
def Life.step (permit : ℕ) (life : Life) (event : Event) : Option Life :=
  if event.permit=permit then life.follow event else some life

def Life.of (permit : ℕ) (log : List Event) : Option Life := log.foldlM (Life.step permit) .unborn

namespace System

def life (system : System) (permit : ℕ) : Life :=
  (system.permits.find permit).elim (if permit < system.admitted then .gone else .unborn) fun held =>
    (system.state.live.find held.id).elim .gone fun live=>.live live.stage

def refused (system : System) : Operation → Bool
  | .beginFrame frameSequence items bytes zeroByteOperations frameItemLimit =>
    (system.state.beginFrame frameSequence items bytes zeroByteOperations frameItemLimit).isNone
  | .tryAdmitPayload bytes => (system.state.tryAdmitPayload bytes).isNone
  | .tryAdmitZeroByte urgent => (system.state.tryAdmitZeroByteWithPriority urgent).isNone
  | .intoHandoff permit => (system.permits.find permit).all fun held =>
    !(system.state.transfer held .meshReady .handoff).isOk
  | .intoRenderEntity permit => (system.permits.find permit).all fun held =>
    !(system.state.transfer held .handoff .renderEntity).isOk
  | .intoGpuPrepared permit additionalBytes => (system.permits.find permit).all fun held =>
    !(system.state.intoGpuPreparedWithAdditionalBytes held additionalBytes).isOk
  | .retire permit => (system.permits.find permit).isNone
  | .drop permit => (system.permits.find permit).isNone

def price : Operation → Credits
  | .tryAdmitPayload bytes => ⟨1,bytes,1,bytes,0⟩
  | .tryAdmitZeroByte _ => ⟨0,0,1,0,1⟩
  | .intoGpuPrepared _ additionalBytes => ⟨0,additionalBytes,0,additionalBytes,0⟩
  | _ => ⟨0,0,0,0,0⟩

def cost (system : System) (operation : Operation) : Credits :=
  if system.refused operation then ⟨0,0,0,0,0⟩ else price operation

end System

/-- Permits held and permits live are the same, and each has lived in order. -/
structure Sound (config : PublicationServiceConfig) (system : System) : Prop where
  config : system.state.config=config
  counted : Counted system.state
  bounded : Bounded system.state
  held : ∀ {n permit}, system.permits.find n=some permit →
    n < system.admitted ∧ permit.active=true ∧ ∃ live, system.state.live.find permit.id=some live
  unique : ∀ {n m permit permit'}, system.permits.find n=some permit →
    system.permits.find m=some permit' → permit.id=permit'.id → n=m
  owned : ∀ {id live}, system.state.live.find id=some live →
    ∃ n permit, system.permits.find n=some permit ∧ permit.id=id
  lives : ∀ n, Life.of n system.log=some (system.life n)

section Steps

variable {config : PublicationServiceConfig} {system : System} {n : ℕ} {permit : PublicationPermit}
  {operation : Operation}

lemma Life.of_append (n : ℕ) (log : List Event) (event : Event) :
    Life.of n (log ++ [event]) = (Life.of n log).bind fun life=>life.step n event := by
  unfold Life.of
  rw [foldlM_append]
  refine congrArg _ (funext fun life=>?_)
  rw [foldlM_cons]
  cases life.step n event <;> rfl

lemma Sound.new (config : PublicationServiceConfig) : Sound config (.new config) where
  config := rfl
  counted := ⟨rfl,rfl,rfl⟩
  bounded := ⟨Nat.zero_le _,Nat.zero_le _,Nat.zero_le _,Nat.zero_le _,Nat.zero_le _⟩
  held h := by cases h
  unique h := by cases h
  owned h := by cases h
  lives _ := rfl

section

variable (h : Sound config system)
include h

lemma Sound.find_admitted : system.permits.find system.admitted=none := by
  cases hfind : system.permits.find system.admitted with
  | none => rfl
  | some permit => exact absurd (h.held hfind).1 (lt_irrefl _)

lemma Sound.enter {cls : PublicationPermitClass} {cost : Credits}
    {before : PublicationAllowanceState} (hadmits : system.state.Admits cls cost before)
    (hnew : before.live.find before.nextId=none) :
    Sound config (system.enter (some (before.charged cls,some ⟨before.nextId,true⟩))) := by
  have hlive : before.live=system.state.live := by rw [hadmits.spent]
  have hconfig : before.config=system.state.config := by rw [hadmits.spent]
  have hnone := h.find_admitted
  have hother {n : ℕ} {permit : PublicationPermit} (hfind : system.permits.find n=some permit) :
      permit.id≠before.nextId := by
    intro heq
    obtain ⟨-,-,live,hlive'⟩ := h.held hfind
    rw [heq,← hlive,hnew] at hlive'
    cases hlive'
  have hne {n : ℕ} {permit : PublicationPermit} (hfind : system.permits.find n=some permit) : n≠system.admitted := by
    rintro rfl
    rw [hnone] at hfind
    cases hfind
  have hkept (id : ℕ) (hid : id≠before.nextId) : (before.charged cls).live.find id=system.state.live.find id := by
    change (before.live.insert before.nextId _).find id=_
    rw [Entries.find_insert,if_neg hid,hlive]
  have hself : (before.charged cls).live.find before.nextId=some ⟨.meshReady,cls⟩ := by
    change (before.live.insert before.nextId _).find _=_
    rw [Entries.find_insert,if_pos rfl]
  have hpermits (n : ℕ) : (system.enter (some (before.charged cls,some ⟨before.nextId,true⟩))).permits.find n =
      if n=system.admitted then some ⟨before.nextId,true⟩ else system.permits.find n :=
    Entries.find_insert
  refine ⟨hconfig.trans h.config,hadmits.counted h.counted hnew,hadmits.bounded h.bounded,?_,?_,?_,?_⟩
  · intro n permit hfind
    rw [hpermits] at hfind
    by_cases heq : n=system.admitted
    · rw [if_pos heq] at hfind
      cases hfind
      exact ⟨heq ▸ Nat.lt_succ_self _,rfl,_,hself⟩
    · rw [if_neg heq] at hfind
      obtain ⟨hlt,hactive,live,hlive'⟩ := h.held hfind
      exact ⟨hlt.trans (Nat.lt_succ_self _),hactive,live,(hkept _ (hother hfind)).trans hlive'⟩
  · intro n m permit permit' hn hm hid
    rw [hpermits] at hn hm
    by_cases hn' : n=system.admitted
    · by_cases hm' : m=system.admitted
      · exact hn'.trans hm'.symm
      · rw [if_pos hn'] at hn
        rw [if_neg hm'] at hm
        cases hn
        exact absurd hid.symm (hother hm)
    · rw [if_neg hn'] at hn
      by_cases hm' : m=system.admitted
      · rw [if_pos hm'] at hm
        cases hm
        exact absurd hid (hother hn)
      · rw [if_neg hm'] at hm
        exact h.unique hn hm hid
  · intro id live hfind
    by_cases hid : id=before.nextId
    · exact ⟨system.admitted,_,(hpermits _).trans (if_pos rfl),hid.symm⟩
    · obtain ⟨n,permit,hn,hpermit⟩ := h.owned ((hkept id hid).symm.trans hfind)
      exact ⟨n,permit,(hpermits n).trans ((if_neg (hne hn)).trans hn),hpermit⟩
  · intro n
    change Life.of n (system.log ++ [.admitted system.admitted]) = _
    rw [Life.of_append,h.lives n,Option.bind_some]
    unfold Life.step System.life
    rw [hpermits]
    change (if system.admitted=n then _ else _) = _
    by_cases heq : n=system.admitted
    · subst heq
      rw [if_pos rfl,if_pos rfl,hnone]
      rw [if_neg (lt_irrefl _)]
      change _=some (((before.charged cls).live.find before.nextId).elim _ _)
      rw [hself]
      rfl
    · rw [if_neg (Ne.symm heq),if_neg heq]
      cases hfind : system.permits.find n with
      | none =>
        dsimp only [Option.elim]
        have hlt : n < system.admitted+1 ↔ n < system.admitted := by omega
        rw [show (system.enter (some (before.charged cls,some ⟨before.nextId,true⟩))).admitted =
          system.admitted+1 from rfl]
        simp only [hlt]
      | some permit =>
        change _=some (((before.charged cls).live.find permit.id).elim _ _)
        rw [hkept _ (hother hfind)]
        rfl

lemma Sound.moved (hfind : system.permits.find n=some permit)
    {live : LivePermit} (hlive : system.state.live.find permit.id=some live)
    {stage : PublicationPermitStage} (hnext : live.stage.next=some stage) {growth : ℕ}
    {after : PublicationAllowanceState} (hmoves : system.state.Moves permit.id live stage growth after) :
    Sound config (system.move n permit stage (.ok after)) := by
  obtain ⟨cls,heq,-⟩ := hmoves.record
  have hconfig : after.config=system.state.config := by rw [heq]
  have hfound (id : ℕ) : after.live.find id = if id=permit.id then some ⟨stage,cls⟩ else system.state.live.find id := by
    rw [heq]
    exact Entries.find_insert
  have hsome (id : ℕ) : (∃ live, after.live.find id=some live) ↔ ∃ live, system.state.live.find id=some live := by
    rw [hfound]
    by_cases hid : id=permit.id
    · rw [if_pos hid,hid]
      exact ⟨fun _=>⟨live,hlive⟩,fun _=>⟨_,rfl⟩⟩
    · rw [if_neg hid]
  refine ⟨hconfig.trans h.config,hmoves.counted h.counted hlive,hmoves.bounded h.bounded,?_, h.unique,?_,?_⟩
  · intro m other hm
    obtain ⟨hlt,hactive,hsome'⟩ := h.held hm
    exact ⟨hlt,hactive,(hsome _).2 hsome'⟩
  · intro id live' hid
    obtain ⟨live'',hid'⟩ := (hsome id).1 ⟨live',hid⟩
    exact h.owned hid'
  · intro m
    change Life.of m (system.log ++ [.moved n stage]) = _
    rw [Life.of_append,h.lives m,Option.bind_some]
    unfold Life.step System.life
    change (if n=m then _ else _) = some ((system.permits.find m).elim _ fun held =>
      (after.live.find held.id).elim _ _)
    by_cases hm : n=m
    · subst hm
      rw [if_pos rfl,hfind]
      dsimp only [Option.elim]
      rw [hlive,hfound,if_pos rfl]
      exact if_pos hnext
    · rw [if_neg hm]
      cases hother : system.permits.find m with
      | none => rfl
      | some other =>
        dsimp only [Option.elim]
        rw [hfound,if_neg fun hid=>hm (h.unique hfind hother hid.symm)]

/-- The owner of a held permit gives it up. -/
lemma Sound.leave (hfind : system.permits.find n=some permit) : Sound config (system.leave n permit) := by
  obtain ⟨hlt,-,live,hlive⟩ := h.held hfind
  have hremove := removeLivePermit_spec hlive
  have hcounted := removeLivePermit_counted h.counted hlive
  have hbounded := removeLivePermit_bounded h.bounded permit.id
  unfold System.leave
  rw [hremove] at hcounted hbounded ⊢
  have hpermits (m : ℕ) : (system.permits.erase n).find m =
      if m=n then none else system.permits.find m := Entries.find_erase
  have hfound (id : ℕ) : (system.state.live.erase permit.id).find id =
      if id=permit.id then none else system.state.live.find id := Entries.find_erase
  have hother {m : ℕ} {other : PublicationPermit} (hm : (system.permits.erase n).find m=some other) :
      m≠n ∧ system.permits.find m=some other ∧ other.id≠permit.id := by
    rw [hpermits] at hm
    by_cases heq : m=n
    · rw [if_pos heq] at hm
      cases hm
    · rw [if_neg heq] at hm
      exact ⟨heq,hm,fun hid=>heq (h.unique hm hfind hid)⟩
  refine ⟨h.config,hcounted,hbounded,?_,?_,?_,?_⟩
  · intro m other hm
    obtain ⟨-,hold,hid⟩ := hother hm
    obtain ⟨hlt',hactive,live',hlive'⟩ := h.held hold
    exact ⟨hlt',hactive,live',(hfound _).trans ((if_neg hid).trans hlive')⟩
  · intro m m' other other' hm hm' hid
    exact h.unique (hother hm).2.1 (hother hm').2.1 hid
  · intro id live' hid
    rw [hfound] at hid
    by_cases heq : id=permit.id
    · rw [if_pos heq] at hid
      cases hid
    · rw [if_neg heq] at hid
      obtain ⟨m,other,hm,hother'⟩ := h.owned hid
      refine ⟨m,other,(hpermits m).trans ((if_neg ?_).trans hm),hother'⟩
      rintro rfl
      rw [hfind] at hm
      cases hm
      exact heq hother'.symm
  · intro m
    rw [Life.of_append,h.lives m,Option.bind_some]
    unfold Life.step System.life
    rw [hpermits]
    change (if n=m then _ else _) = _
    by_cases hm : n=m
    · subst hm
      rw [if_pos rfl,if_pos rfl,hfind]
      dsimp only [Option.elim]
      rw [hlive,if_pos hlt]
      rfl
    · rw [if_neg hm,if_neg (Ne.symm hm)]
      cases hm' : system.permits.find m with
      | none => rfl
      | some other =>
        dsimp only [Option.elim]
        rw [hfound,if_neg fun hid=>hm (h.unique hfind hm' hid.symm)]

end

lemma own_eq (hfind : system.permits.find n=some permit) (use : PublicationPermit → System) :
    system.own n use=use permit := by
  unfold System.own
  rw [hfind]

lemma own_absent (hfind : system.permits.find n=none) (use : PublicationPermit → System) : system.own n use=system := by
  unfold System.own
  rw [hfind]

lemma Sound.move (h : Sound config system) {expected stage : PublicationPermitStage}
    (hnext : expected.next=some stage) {growth : ℕ}
    {attempt : PublicationPermit → Except PublicationPermit PublicationAllowanceState}
    (hattempt : ∀ {permit live}, system.state.live.find permit.id=some live →
      (∃ held, attempt permit = .error held ∧ held=permit) ∨ (live.stage=expected ∧
        ∃ after, attempt permit = .ok after ∧ system.state.Moves permit.id live stage growth after))
    (n : ℕ) :
    Sound config (system.own n fun held=>system.move n held stage (attempt held)) ∧
      ((system.permits.find n).all (fun held=>!(attempt held).isOk) = true →
        (system.own n fun held=>system.move n held stage (attempt held)) = system) ∧
      ((system.permits.find n).all (fun held=>!(attempt held).isOk) = false →
        (system.own n fun held=>system.move n held stage (attempt held)).state.credits.plus
          ⟨0,growth,0,growth,0⟩ = system.state.credits) := by
  cases hfind : system.permits.find n with
  | none =>
    rw [own_absent hfind]
    exact ⟨h,fun _=>rfl,fun hall=>by cases hall⟩
  | some permit =>
    rw [own_eq hfind]
    obtain ⟨-,-,live,hlive⟩ := h.held hfind
    rcases hattempt hlive with ⟨held,herror,rfl⟩ | ⟨hstage,after,hok,hmoves⟩
    · rw [herror]
      have hsame : system.move n held stage (.error held) = system := if_pos rfl
      rw [hsame]
      exact ⟨h,fun _=>rfl,fun hall=>by rw [Option.all_some,herror] at hall; cases hall⟩
    · rw [hok]
      refine ⟨h.moved hfind hlive (hstage ▸ hnext) hmoves,fun hall=>?_,fun _=>hmoves.cost⟩
      rw [Option.all_some,hok] at hall
      cases hall

/-- An admission is refused and changes nothing, or is new, or finds its identity live. -/
lemma Sound.admitted (h : Sound config system) {cls : PublicationPermitClass} {cost : Credits}
    {attempt : Option (PublicationAllowanceState × Option PublicationPermit)}
    (hattempt : ∀ result, attempt=some result → ∃ before, system.state.Admits cls cost before ∧
      result=before.insertPermit cls) :
    ((system.enter attempt).collided=false → Sound config (system.enter attempt)) ∧
      (attempt.isNone=true → system.enter attempt=system) ∧
      (attempt.isNone=false →
        (system.enter attempt).state.credits.plus cost=system.state.credits) := by
  cases hresult : attempt with
  | none => exact ⟨fun _=>h,fun _=>rfl,fun hsome=>by cases hsome⟩
  | some result =>
    obtain ⟨before,hadmits,rfl⟩ := hattempt result hresult
    refine ⟨fun hcollided=>?_,fun hnone=>(by cases hnone),fun _=>?_⟩
    · rcases insertPermit_spec cls before with ⟨hnew,heq⟩ | ⟨-,heq⟩
      · rw [heq]
        exact h.enter hadmits hnew
      · rw [heq] at hcollided
        cases hcollided
    · have hcredits : (system.enter (some (before.insertPermit cls))).state.credits=before.credits := by
        rcases insertPermit_spec cls before with ⟨-,heq⟩ | ⟨-,heq⟩
        · rw [heq]
          rfl
        · rw [heq]
          rfl
      rw [hcredits]
      exact hadmits.cost

def Operation.begins : Operation → Bool
  | .beginFrame .. => true
  | _ => false

lemma Sound.beginFrame (h : Sound config system) {after : PublicationAllowanceState}
    {frameSequence items bytes zeroByteOperations frameItemLimit : ℕ}
    (hbegin : system.state.beginFrame frameSequence items bytes zeroByteOperations frameItemLimit =
      some after) : Sound config { system with state := after } := by
  obtain ⟨-,heq,hitems,hbytes⟩ := beginFrame_spec hbegin
  rw [heq]
  exact ⟨h.config,⟨h.counted.items,h.counted.bytes,h.counted.zeroByteOperations⟩,⟨h.bounded.items,h.bounded.bytes,h.bounded.zeroByteOperations,hitems,
    hbytes⟩,h.held,h.unique,h.owned,h.lives⟩

/-- An operation keeps the accounts where no identity collided; refused, it changes nothing, and
otherwise it spends its price. -/
lemma Sound.step (h : Sound config system) (operation : Operation) :
    ((system.step operation).collided=false → Sound config (system.step operation)) ∧
      (system.refused operation=true → system.step operation=system) ∧
      (system.refused operation=false → operation.begins=false →
        (system.step operation).state.credits.plus (System.price operation) = system.state.credits) := by
  cases operation with
  | beginFrame frameSequence items bytes zeroByteOperations frameItemLimit =>
    refine ⟨fun _=>?_,fun hrefused=>?_,fun _ hbegins=>(by cases hbegins)⟩
    · unfold System.step
      dsimp only
      cases hbegin : system.state.beginFrame frameSequence items bytes zeroByteOperations
          frameItemLimit with
      | none => exact h
      | some after => exact h.beginFrame hbegin
    · unfold System.step
      dsimp only
      rw [Option.isNone_iff_eq_none.1 hrefused]
      rfl
  | tryAdmitPayload bytes =>
    obtain ⟨hsound,hrefused,hspent⟩ := h.admitted fun _ hresult =>
      tryAdmitPayload_spec hresult
    exact ⟨hsound,hrefused,fun haccepted _=>hspent haccepted⟩
  | tryAdmitZeroByte urgent =>
    obtain ⟨hsound,hrefused,hspent⟩ := h.admitted fun _ hresult =>
      tryAdmitZeroByte_spec hresult
    exact ⟨hsound,hrefused,fun haccepted _=>hspent haccepted⟩
  | intoHandoff permit =>
    obtain ⟨hsound,hrefused,hspent⟩ := h.move (show PublicationPermitStage.meshReady.next=_ from rfl)
      transfer_spec permit
    exact ⟨fun _=>hsound,hrefused,fun haccepted _=>hspent haccepted⟩
  | intoRenderEntity permit =>
    obtain ⟨hsound,hrefused,hspent⟩ := h.move (show PublicationPermitStage.handoff.next=_ from rfl) transfer_spec permit
    exact ⟨fun _=>hsound,hrefused,fun haccepted _=>hspent haccepted⟩
  | intoGpuPrepared permit additionalBytes =>
    obtain ⟨hsound,hrefused,hspent⟩ := h.move (show PublicationPermitStage.renderEntity.next=_ from rfl)
      intoGpuPrepared_spec permit
    exact ⟨fun _=>hsound,hrefused,fun haccepted _=>hspent haccepted⟩
  | retire permit =>
    unfold System.step
    dsimp only
    cases hfind : system.permits.find permit with
    | none =>
      rw [own_absent hfind]
      exact ⟨fun _=>h,fun _=>rfl,fun _ _=>rfl⟩
    | some held =>
      rw [own_eq hfind]
      obtain ⟨-,-,live,hlive⟩ := h.held hfind
      refine ⟨fun _=>h.leave hfind,fun hrefused=>?_,fun _ _=>?_⟩
      · rw [System.refused,hfind] at hrefused
        cases hrefused
      · unfold System.leave
        rw [removeLivePermit_spec hlive]
        rfl
  | drop permit =>
    unfold System.step
    dsimp only
    cases hfind : system.permits.find permit with
    | none =>
      rw [own_absent hfind]
      exact ⟨fun _=>h,fun _=>rfl,fun _ _=>rfl⟩
    | some held =>
      rw [own_eq hfind]
      obtain ⟨-,hactive,live,hlive⟩ := h.held hfind
      rw [if_pos hactive]
      refine ⟨fun _=>h.leave hfind,fun hrefused=>?_,fun _ _=>?_⟩
      · rw [System.refused,hfind] at hrefused
        cases hrefused
      · unfold System.leave
        rw [removeLivePermit_spec hlive]
        rfl

/-- What an operation that admits nothing keeps, in any state. -/
structure Kept (system after : System) : Prop where
  next : after.state.nextPermitId=system.state.nextPermitId
  admitted : after.admitted=system.admitted
  collided : after.collided=system.collided
  live : ∀ id live, after.state.live.find id=some live → ∃ live, system.state.live.find id=some live

lemma Kept.refl (system : System) : Kept system system :=
  ⟨rfl,rfl,rfl,fun _ live h=>⟨live,h⟩⟩

lemma kept_own (use : PublicationPermit → System) (huse : ∀ held, Kept system (use held)) (n : ℕ) :
    Kept system (system.own n use) := by
  cases hfind : system.permits.find n with
  | none =>
    rw [own_absent hfind]
    exact .refl system
  | some held =>
    rw [own_eq hfind]
    exact huse held

lemma kept_leave (n : ℕ) (held : PublicationPermit) : Kept system (system.leave n held) := by
  unfold System.leave removeLivePermit
  cases hfind : system.state.live.find held.id with
  | none => exact ⟨rfl,rfl,rfl,fun _ live h=>⟨live,h⟩⟩
  | some live =>
    refine ⟨rfl,rfl,rfl,fun id live' h=>?_⟩
    rw [Entries.find_erase] at h
    split at h
    · cases h
    · exact ⟨live',h⟩

lemma kept_move (n : ℕ) (held : PublicationPermit) (stage : PublicationPermitStage)
    {result : Except PublicationPermit PublicationAllowanceState}
    (hresult : ∀ after, result = .ok after → ∃ live growth, system.state.live.find held.id=some live ∧
        system.state.Moves held.id live stage growth after) :
    Kept system (system.move n held stage result) := by
  cases result with
  | error back =>
    unfold System.move
    dsimp only
    by_cases hback : back=held
    · rw [if_pos hback]
      exact .refl system
    · rw [if_neg hback]
      exact ⟨rfl,rfl,rfl,fun _ live h=>⟨live,h⟩⟩
  | ok after =>
    obtain ⟨live,growth,hfind,hmoves⟩ := hresult after rfl
    obtain ⟨cls,heq,-⟩ := hmoves.record
    have hnext : after.nextPermitId=system.state.nextPermitId := by rw [heq]
    refine ⟨hnext,rfl,rfl,fun id live' h=>?_⟩
    change after.live.find id=_ at h
    rw [heq] at h
    rw [Entries.find_insert] at h
    split at h
    · rename_i hid
      exact ⟨live,hid ▸ hfind⟩
    · exact ⟨live',h⟩

variable {state after : PublicationAllowanceState}

lemma transfer_ok {expected next : PublicationPermitStage} (h : state.transfer permit expected next = .ok after) :
    ∃ live growth, state.live.find permit.id=some live ∧
      state.Moves permit.id live next growth after := by
  cases hfind : state.live.find permit.id with
  | none =>
    rw [transfer,hfind] at h
    cases h
  | some live =>
    rcases transfer_spec hfind with
      ⟨held,herror,-⟩ | ⟨-,after',hok,hmoves⟩
    · rw [herror] at h
      cases h
    · rw [hok] at h
      cases h
      exact ⟨live,0,rfl,hmoves⟩

lemma intoGpuPrepared_ok {additionalBytes : ℕ}
    (h : state.intoGpuPreparedWithAdditionalBytes permit additionalBytes = .ok after) :
    ∃ live growth, state.live.find permit.id=some live ∧
      state.Moves permit.id live .gpuPrepared growth after := by
  cases hfind : state.live.find permit.id with
  | none =>
    rw [intoGpuPreparedWithAdditionalBytes,hfind] at h
    cases h
  | some live =>
    rcases intoGpuPrepared_spec hfind with
      ⟨held,herror,-⟩ | ⟨-,after',hok,hmoves⟩
    · rw [herror] at h
      cases h
    · rw [hok] at h
      cases h
      exact ⟨live,additionalBytes,rfl,hmoves⟩

lemma step_cases (system : System) (operation : Operation) :
    (∃ cls, ∃ before : PublicationAllowanceState, before.nextPermitId=system.state.nextPermitId ∧
      before.live=system.state.live ∧ system.step operation=system.enter (some (before.insertPermit cls))) ∨
      Kept system (system.step operation) := by
  have hadmit {cls : PublicationPermitClass} {cost : Credits}
      {attempt : Option (PublicationAllowanceState × Option PublicationPermit)}
      (hattempt : ∀ result, attempt=some result → ∃ before, system.state.Admits cls cost before ∧
        result=before.insertPermit cls) :
      (∃ cls, ∃ before : PublicationAllowanceState, before.nextPermitId=system.state.nextPermitId ∧
        before.live=system.state.live ∧ system.enter attempt=system.enter (some (before.insertPermit cls))) ∨
        Kept system (system.enter attempt) := by
    cases hresult : attempt with
    | none => exact .inr (.refl system)
    | some result =>
      obtain ⟨before,hadmits,rfl⟩ := hattempt result hresult
      refine .inl ⟨cls,before,?_,?_,rfl⟩
      · rw [hadmits.spent]
      · rw [hadmits.spent]
  cases operation with
  | beginFrame frameSequence items bytes zeroByteOperations frameItemLimit =>
    right
    unfold System.step
    dsimp only
    cases hbegin : system.state.beginFrame frameSequence items bytes zeroByteOperations
        frameItemLimit with
    | none => exact .refl system
    | some after =>
      obtain ⟨-,heq,-⟩ := beginFrame_spec hbegin
      rw [heq]
      exact ⟨rfl,rfl,rfl,fun _ live h=>⟨live,h⟩⟩
  | tryAdmitPayload bytes =>
    exact hadmit fun _ hresult=>tryAdmitPayload_spec hresult
  | tryAdmitZeroByte urgent =>
    exact hadmit fun _ hresult=>tryAdmitZeroByte_spec hresult
  | intoHandoff n =>
    exact .inr (kept_own _ (fun held=>kept_move n held _ fun _ hok=>transfer_ok hok) n)
  | intoRenderEntity n =>
    exact .inr (kept_own _ (fun held=>kept_move n held _ fun _ hok=>transfer_ok hok) n)
  | intoGpuPrepared n additionalBytes =>
    exact .inr (kept_own _ (fun held=>kept_move n held _ fun _ hok=>intoGpuPrepared_ok hok) n)
  | retire n => exact .inr (kept_own _ (kept_leave n) n)
  | drop n =>
    refine .inr (kept_own _ (fun held=>?_) n)
    split
    · exact kept_leave n held
    · exact ⟨rfl,rfl,rfl,fun _ live h=>⟨live,h⟩⟩

lemma collided_step (h : (system.step operation).collided=false) : system.collided=false := by
  rcases step_cases system operation with ⟨cls,before,-,-,heq⟩ | hkept
  · rw [heq] at h
    rcases insertPermit_spec cls before with ⟨-,hinsert⟩ | ⟨-,hinsert⟩
    · rw [hinsert] at h
      exact h
    · rw [hinsert] at h
      cases h
  · exact hkept.collided.symm.trans h

end Steps

section Runs

variable {config : PublicationServiceConfig} {system : System}

lemma System.run_cons (system : System) (operation : Operation) (operations : List Operation) :
    system.run (operation::operations) = (system.step operation).run operations := rfl

variable {operations : List Operation}

lemma collided_run (h : (system.run operations).collided=false) : system.collided=false := by
  induction operations generalizing system with
  | nil => exact h
  | cons operation operations ih => exact collided_step (ih h)

lemma Sound.run (h : Sound config system)
    (hcollided : (system.run operations).collided=false) : Sound config (system.run operations) := by
  induction operations generalizing system with
  | nil => exact h
  | cons operation operations ih =>
    exact ih ((h.step operation).1 (collided_run hcollided)) hcollided

/-- The identities given so far, until they wrap. -/
structure Numbered (system : System) : Prop where
  next : system.admitted≤u64Max → system.state.nextPermitId=system.admitted
  live : system.admitted≤u64Max → ∀ id live, system.state.live.find id=some live → id ≤ system.admitted
  collided : system.collided=true → u64Max < system.admitted

lemma Numbered.new (config : PublicationServiceConfig) : Numbered (.new config) where
  next _ := rfl
  live _ _ _ h := by cases h
  collided h := by cases h

/-- Until they wrap, the next identity is new. -/
lemma Numbered.step (h : Numbered system) (operation : Operation) : Numbered (system.step operation) := by
  rcases step_cases system operation with ⟨cls,before,hnext,hlive,heq⟩ | hkept
  · rw [heq]
    have hid (hle : system.admitted+1≤u64Max) : before.nextId=system.admitted+1 := by
      unfold nextId checkedAddUsize
      rw [hnext,h.next (by omega),if_pos hle]
      exact max_eq_left (Nat.le_add_left 1 _)
    have hfresh (hle : system.admitted+1≤u64Max) : before.live.find before.nextId=none := by
      rw [hid hle,hlive]
      cases hfind : system.state.live.find (system.admitted+1) with
      | none => rfl
      | some live =>
        have := h.live (by omega) _ live hfind
        omega
    have hlater {cls : PublicationPermitClass} {id : ℕ} {live : LivePermit} (hle : system.admitted+1≤u64Max)
        (hfind : (before.live.insert before.nextId ⟨.meshReady,cls⟩).find id=some live) :
        id ≤ system.admitted+1 := by
      rw [Entries.find_insert,hid hle,hlive] at hfind
      split at hfind
      · rename_i heq
        exact heq.le
      · exact (h.live (by omega) _ live hfind).trans (Nat.le_succ _)
    rcases insertPermit_spec cls before with ⟨-,hinsert⟩ | ⟨hlive',hinsert⟩
    · rw [hinsert]
      exact ⟨hid,fun hle id live=>hlater hle,fun hcollided =>
        (h.collided hcollided).trans (Nat.lt_succ_self _)⟩
    · rw [hinsert]
      refine ⟨hid,fun hle id live=>hlater hle,fun _=>not_le.1 fun hle=>?_⟩
      rw [hfresh hle] at hlive'
      cases hlive'
  · refine ⟨fun hle=>?_,fun hle id live hfind=>?_,fun hafter=>?_⟩
    · rw [hkept.next,hkept.admitted]
      exact h.next (hkept.admitted ▸ hle)
    · obtain ⟨live',hfind'⟩ := hkept.live id live hfind
      rw [hkept.admitted] at hle ⊢
      exact h.live hle id live' hfind'
    · rw [hkept.admitted]
      exact h.collided (hkept.collided ▸ hafter)

lemma Numbered.run (h : Numbered system) (operations : List Operation) : Numbered (system.run operations) := by
  induction operations generalizing system with
  | nil => exact h
  | cons operation operations ih => exact ih (h.step operation)

lemma capacity_step (urgent : Bool) (system : System)
    (hcollided : (system.step (.tryAdmitZeroByte urgent)).collided=false) :
    (system.state.zeroByteAdmissionCapacityWithPriority urgent=0 ∧ system.step (.tryAdmitZeroByte urgent) = system) ∨
    ((system.step (.tryAdmitZeroByte urgent)).admitted=system.admitted+1 ∧
      (system.step (.tryAdmitZeroByte urgent)).state.zeroByteAdmissionCapacityWithPriority urgent+1 =
        system.state.zeroByteAdmissionCapacityWithPriority urgent) := by
  change (system.enter (system.state.tryAdmitZeroByteWithPriority urgent)).collided=false at hcollided
  change _ ∧ system.enter (system.state.tryAdmitZeroByteWithPriority urgent) = system ∨
    (system.enter (system.state.tryAdmitZeroByteWithPriority urgent)).admitted=_ ∧
      (system.enter (system.state.tryAdmitZeroByteWithPriority
        urgent)).state.zeroByteAdmissionCapacityWithPriority urgent+1=_
  unfold tryAdmitZeroByteWithPriority at hcollided ⊢
  split at hcollided
  · rename_i hrefused
    rw [if_pos hrefused]
    refine .inl ⟨?_,rfl⟩
    unfold zeroByteAdmissionCapacityWithPriority
    omega
  · rename_i hallowed
    rw [if_neg hallowed]
    right
    rcases insertPermit_spec .zeroByte _ with ⟨-,hinsert⟩ | ⟨-,hinsert⟩
    · rw [hinsert]
      refine ⟨rfl,?_⟩
      change min (min (system.state.credits.remainingZeroByteOperations-1)
        (system.state.credits.frameRemainingOperations-1))
          (system.state.liveLimit urgent - (system.state.liveZeroByteOperations+1))+1 =
        min (min system.state.credits.remainingZeroByteOperations system.state.credits.frameRemainingOperations)
            (system.state.liveLimit urgent-system.state.liveZeroByteOperations)
      omega
    · rw [hinsert] at hcollided
      cases hcollided

lemma capacity_run (urgent : Bool) (attempts : ℕ) (system : System)
    (hcollided : (system.run (List.replicate attempts (.tryAdmitZeroByte urgent))).collided=false) :
    (system.run (List.replicate attempts (.tryAdmitZeroByte urgent))).admitted =
      system.admitted+min attempts (system.state.zeroByteAdmissionCapacityWithPriority urgent) := by
  induction attempts generalizing system with
  | zero => rw [Nat.zero_min]; rfl
  | succ attempts ih =>
    rw [replicate_succ,System.run_cons] at hcollided ⊢
    rw [ih _ hcollided]
    rcases capacity_step urgent system (collided_run hcollided) with ⟨hnone,hsame⟩ | ⟨hone,hless⟩
    · rw [hsame,hnone,Nat.min_zero,Nat.min_zero]
    · omega

structure Accounted (config : PublicationServiceConfig) (system : System) : Prop where
  config : system.state.config=config
  counted : Counted system.state
  bounded : Bounded system.state
  /-- Each permit is admitted, visits its stages in order and leaves, each once. -/
  lives : ∀ n, Life.of n system.log=some (system.life n)
  owned : ∀ id, (∃ live, system.state.live.find id=some live) ↔
    ∃ n permit, system.permits.find n=some permit ∧ permit.id=id
  refused : ∀ operation, system.refused operation=true → system.step operation=system
  spent : ∀ operation, operation.begins=false →
    (system.step operation).state.credits.plus (system.cost operation) = system.state.credits
  /-- Of any attempts in a row, as many succeed as the capacity says. -/
  capacity : ∀ urgent attempts, (system.run (List.replicate attempts (.tryAdmitZeroByte urgent))).collided=false →
      (system.run (List.replicate attempts (.tryAdmitZeroByte urgent))).admitted =
        system.admitted+min attempts (system.state.zeroByteAdmissionCapacityWithPriority urgent)

lemma Sound.accounted (h : Sound config system) : Accounted config system where
  __ := h
  owned id := by
    constructor
    · rintro ⟨live,hlive⟩
      exact h.owned hlive
    · rintro ⟨n,permit,hfind,rfl⟩
      exact (h.held hfind).2.2
  refused operation := (h.step operation).2.1
  spent operation hbegins := by
    obtain ⟨-,hrefused,hspent⟩ := h.step operation
    unfold System.cost
    cases hcase : system.refused operation with
    | true =>
      rw [hrefused hcase]
      rfl
    | false => exact hspent hcase hbegins
  capacity urgent attempts := capacity_run urgent attempts system

/-- Every run keeps the accounts, until an admission finds its identity live, which takes as many
admissions as there are identities. -/
theorem permits_accounted (config : PublicationServiceConfig) (operations : List Operation) :
    (((System.new config).run operations).collided = true → u64Max < ((System.new config).run operations).admitted) ∧
    (((System.new config).run operations).collided = false → Accounted config ((System.new config).run operations)) :=
  ⟨((Numbered.new config).run operations).collided,fun h => ((Sound.new config).run h).accounted⟩

end Runs

section Wrapping

/-- A frame of as many zero-byte operations as there are identities. -/
def wrapConfig : PublicationServiceConfig := ⟨u64Max,1,1,1,u64Max,0⟩

/-- A payload permit is kept, and zero-byte permits come and go until the identities wrap to its. -/
def wrapOperations : List Operation :=
  [.beginFrame 1 1 1 u64Max u64Max,.tryAdmitPayload 1] ++
    ((List.range (u64Max-1)).flatMap fun n=>[.tryAdmitZeroByte false,.retire (n+1)]) ++
      [.beginFrame 2 0 0 u64Max u64Max,.tryAdmitZeroByte false]

/-- The state after some zero-byte permits came and went. -/
structure Wrapping (n : ℕ) (system : System) : Prop where
  config : system.state.config=wrapConfig
  sequence : system.state.frameSequence=1
  next : system.state.nextPermitId=n+1
  operations : system.state.credits.frameRemainingOperations+n+1=u64Max
  zeroByteOperations : system.state.credits.remainingZeroByteOperations+n=u64Max
  live : system.state.liveZeroByteOperations=0
  first : (system.state.live.find 1).isSome=true
  later : ∀ id, 1 < id → system.state.live.find id=none
  admitted : system.admitted=n+1

lemma leave_state (system : System) (n : ℕ) (held : PublicationPermit) :
    (system.leave n held).state = (system.state.removeLivePermit held.id).2 := by
  unfold System.leave
  split <;> simp_all

lemma leave_admitted (system : System) (n : ℕ) (held : PublicationPermit) :
    (system.leave n held).admitted=system.admitted := (kept_leave n held).admitted

lemma Wrapping.step {n : ℕ} {system : System} (h : Wrapping n system) (hlt : n+1<u64Max) :
    Wrapping (n+1) (system.run [.tryAdmitZeroByte false,.retire (n+1)]) := by
  have hallowed : ¬(system.state.credits.remainingZeroByteOperations=0 ∨
      system.state.credits.frameRemainingOperations=0 ∨
        system.state.liveLimit false ≤ system.state.liveZeroByteOperations) := by
    have hoperations := h.operations
    have hzero := h.zeroByteOperations
    unfold liveLimit
    rw [h.live,h.config]
    unfold wrapConfig
    simp only [Bool.toNat_false,Nat.zero_mul,Nat.add_zero,min_self]
    omega
  have hid : system.state.nextId=n+2 := by
    unfold nextId checkedAddUsize
    rw [h.next,if_pos (show n+1+1≤usizeMax from hlt)]
    exact max_eq_left (Nat.le_add_left 1 _)
  have hadmit : ∃ before : PublicationAllowanceState, before = { system.state with credits := before.credits } ∧
      before.credits.frameRemainingOperations=system.state.credits.frameRemainingOperations-1 ∧
      before.credits.remainingZeroByteOperations=system.state.credits.remainingZeroByteOperations-1 ∧
      system.state.tryAdmitZeroByteWithPriority false=some (before.insertPermit .zeroByte) :=
    ⟨_,rfl,rfl,rfl,if_neg hallowed⟩
  obtain ⟨before,hbefore,hoperations,hzero,htry⟩ := hadmit
  have hnextId : before.nextId=n+2 := by rw [hbefore]; exact hid
  have hlive : before.live=system.state.live := by rw [hbefore]
  rcases insertPermit_spec .zeroByte before with ⟨-,hinsert⟩ | ⟨hcollides,-⟩
  · have hstep : system.step (.tryAdmitZeroByte false) =
        system.enter (some (before.charged .zeroByte,some ⟨before.nextId,true⟩)) := by
      rw [← hinsert,← htry]
      rfl
    have hheld : (system.step (.tryAdmitZeroByte false)).permits.find (n+1) = some ⟨before.nextId,true⟩ := by
      rw [hstep]
      change (system.permits.insert system.admitted _).find (n+1) = _
      rw [Entries.find_insert,h.admitted,if_pos rfl]
    have hfound (id : ℕ) : (before.charged .zeroByte).live.find id =
        if id=n+2 then some ⟨.meshReady,.zeroByte⟩ else system.state.live.find id := by
      change (before.live.insert before.nextId _).find id=_
      rw [Entries.find_insert,hnextId,hlive]
    have hremove := removeLivePermit_spec
      (((hfound (n+2)).trans (if_pos rfl) : (before.charged .zeroByte).live.find (n+2) = _))
    have hleft (id : ℕ) : ((before.charged .zeroByte).live.erase (n+2)).find id =
        if id=n+2 then none else system.state.live.find id := by
      rw [Entries.find_erase,hfound]
      split
      · rfl
      · rfl
    have hrun : system.run [.tryAdmitZeroByte false,.retire (n+1)] =
        (system.step (.tryAdmitZeroByte false)).leave (n+1) ⟨before.nextId,true⟩ := own_eq hheld _
    have hstate : (system.run [.tryAdmitZeroByte false,.retire (n+1)]).state =
        ((before.charged .zeroByte).removeLivePermit (n+2)).2 := by
      rw [hrun,leave_state,hstep,hnextId]
      rfl
    have hadmitted : (system.run [.tryAdmitZeroByte false,.retire (n+1)]).admitted=n+2 := by
      rw [hrun,leave_admitted,hstep]
      exact congrArg (· + 1) h.admitted
    rw [hremove] at hstate
    have hwrapped := h.operations
    have hwrapped' := h.zeroByteOperations
    refine ⟨?_,?_,?_,?_,?_,?_,?_,fun id hid=>?_,hadmitted⟩
    · rw [hstate,hbefore]
      exact h.config
    · rw [hstate,hbefore]
      exact h.sequence
    · rw [hstate]
      exact hnextId
    · rw [hstate]
      change before.credits.frameRemainingOperations + (n+1)+1=u64Max
      omega
    · rw [hstate]
      change before.credits.remainingZeroByteOperations + (n+1) = u64Max
      omega
    · rw [hstate,hbefore]
      exact (Nat.add_sub_cancel _ 1).trans h.live
    · rw [hstate]
      exact (congrArg Option.isSome ((hleft 1).trans (if_neg (by omega)))).trans h.first
    · rw [hstate]
      refine (hleft id).trans ?_
      split
      · rfl
      · exact h.later id hid
  · rw [hnextId,hlive,h.later _ (by omega)] at hcollides
    cases hcollides

lemma Wrapping.steps {system : System} (h : Wrapping 0 system) (n : ℕ) (hle : n+1≤u64Max) :
    Wrapping n (system.run ((List.range n).flatMap fun n=>[.tryAdmitZeroByte false,.retire (n+1)])) := by
  induction n with
  | zero => exact h
  | succ n ih =>
    rw [range_succ,flatMap_append,flatMap_singleton]
    unfold System.run
    rw [foldl_append]
    exact (ih (by omega)).step (by omega)

lemma wrapping_start : Wrapping 0 ((System.new wrapConfig).run
    [.beginFrame 1 1 1 u64Max u64Max,.tryAdmitPayload 1]) where
  config := by decide
  sequence := by decide
  next := by decide
  operations := by decide
  zeroByteOperations := by decide
  live := by decide
  first := by decide
  later id hid := by
    change (Entries.empty.insert 1 _).find id=none
    rw [Entries.find_insert,if_neg hid.ne']
    rfl
  admitted := by decide

/-- With the identities used up, the next admission replaces the first permit's record. -/
lemma Wrapping.collides {system : System} (h : Wrapping (u64Max-1) system) :
    ¬Counted (system.run [.beginFrame 2 0 0 u64Max u64Max,.tryAdmitZeroByte false]).state := by
  have hbegin : ∃ after, system.state.beginFrame 2 0 0 u64Max u64Max=some after ∧
      after = { system.state with frameSequence := 2, credits := after.credits } ∧
      after.credits.frameRemainingOperations=u64Max ∧
      after.credits.remainingZeroByteOperations=u64Max := by
    refine ⟨_,if_neg ?_,rfl,?_,?_⟩
    · rw [h.sequence]
      decide
    · dsimp only
      rw [h.config]
      decide
    · dsimp only
      rw [h.config]
      decide
  obtain ⟨after,hbegin,hafter,hoperations,hzero⟩ := hbegin
  have hconfig : after.config=wrapConfig := by rw [hafter]; exact h.config
  have hnone : after.liveZeroByteOperations=0 := by rw [hafter]; exact h.live
  have hlive : after.live=system.state.live := by rw [hafter]
  have hid : after.nextId=1 := by
    have hnext : after.nextPermitId=u64Max := by
      rw [hafter]
      exact h.next
    unfold nextId
    rw [hnext]
    decide
  have hallowed : ¬(after.credits.remainingZeroByteOperations=0 ∨ after.credits.frameRemainingOperations=0 ∨
        after.liveLimit false≤after.liveZeroByteOperations) := by
    unfold liveLimit
    rw [hoperations,hzero,hconfig,hnone]
    decide
  have hadmit : ∃ before : PublicationAllowanceState, before = { after with credits := before.credits } ∧
      after.tryAdmitZeroByteWithPriority false=some (before.insertPermit .zeroByte) :=
    ⟨_,rfl,if_neg hallowed⟩
  obtain ⟨before,hbefore,htry⟩ := hadmit
  have hrun : system.run [.beginFrame 2 0 0 u64Max u64Max,.tryAdmitZeroByte false] =
      { system with state := after }.enter (some (before.insertPermit .zeroByte)) := by
    rw [← htry]
    change System.enter { system with state := (system.state.beginFrame 2 0 0 u64Max u64Max).getD _ }
      (((system.state.beginFrame 2 0 0 u64Max u64Max).getD _).tryAdmitZeroByteWithPriority false) = _
    rw [hbegin]
    rfl
  rcases insertPermit_spec .zeroByte before with ⟨hnew,-⟩ | ⟨-,hinsert⟩
  · have hfirst := h.first
    rw [hbefore] at hnew
    change after.live.find after.nextId=none at hnew
    rw [hid,hlive] at hnew
    rw [hnew] at hfirst
    cases hfirst
  · intro hcounted
    rw [hrun,hinsert] at hcounted
    have hcount := hcounted.zeroByteOperations
    change before.liveZeroByteOperations = (before.live.insert before.nextId _).weight _ at hcount
    rw [Entries.weight_insert,hbefore] at hcount
    change after.liveZeroByteOperations=_+1 at hcount
    omega

/-- A wrapped identity collides: the record of the live payload permit is replaced, and the counters
no longer follow the live permits. -/
theorem wrapped_identity_collides : ¬Counted ((System.new wrapConfig).run wrapOperations).state := by
  have hwrapped := wrapping_start.steps (u64Max-1) (by unfold u64Max usizeMax; omega)
  unfold wrapOperations
  unfold System.run at hwrapped ⊢
  rw [foldl_append,foldl_append]
  exact hwrapped.collides

end Wrapping

end Cinnabar.Publication
