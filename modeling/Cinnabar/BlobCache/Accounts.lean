import Cinnabar.BlobCache.Soundness

/-! # No cached packet is lost -/

namespace Cinnabar.BlobCache

open Std List

variable {platform : Platform} {r s t : BlobCacheResolver} {sequence : ℕ} {packet : PendingPacket}
  {handed handed' since : List ChunkResyncEvent}

def BlobCacheResolver.Keeps (platform : Platform) (r : BlobCacheResolver) (sequence : ℕ)
    (packet : PendingPacket) : Prop :=
  (∃ transaction, r.pending[sequence]? = some transaction ∧ transaction.packet=packet) ∨
    ∃ item, r.ready[sequence]? = some item ∧ Rebuilt platform packet item.value

/-- Retained packets stay or are requested, and requests are passed on. -/
structure Passes (platform : Platform) (handed : List ChunkResyncEvent)
    (r t : BlobCacheResolver) : Prop where
  next : r.nextReadySequence≤t.nextReadySequence
  keeps : ∀ {sequence : ℕ} {packet : PendingPacket}, sequence < r.nextReadySequence → r.Keeps platform sequence packet →
    t.Keeps platform sequence packet ∨ Recovered handed t packet
  recovered : ∀ {since : List ChunkResyncEvent} {packet : PendingPacket},
    Recovered since r packet → Recovered (since++handed) t packet

section Passing

lemma Evolves.keeps (h : Evolves platform handed r t) (hkeeps : r.Keeps platform sequence packet) :
    t.Keeps platform sequence packet ∨ Recovered handed t packet := by
  rcases hkeeps with ⟨transaction,hsome,rfl⟩ | ⟨item,hsome,hrebuilt⟩
  · rcases h.keptPending hsome with ⟨later,hlater⟩ | ⟨item,hitem,hrebuilt⟩ | hrecovered
    · obtain ⟨earlier,hearlier,hpacket,-⟩ := h.pending hlater
      rw [hsome] at hearlier
      cases hearlier
      exact Or.inl (Or.inl ⟨later,hlater,hpacket⟩)
    · exact Or.inl (Or.inr ⟨item,hitem,hrebuilt⟩)
    · exact Or.inr hrecovered
  · rcases h.keptReady hsome with hready | hrecovered
    · exact Or.inl (Or.inr ⟨item,hready,hrebuilt⟩)
    · exact Or.inr (hrecovered packet hrebuilt)

lemma Evolves.passes (h : Evolves platform handed r t) : Passes platform handed r t where
  next := h.next.ge
  keeps _ hkeeps := h.keeps hkeeps
  recovered hrecovered := h.recovered hrecovered

lemma Recovered.of_queue (h : Recovered since r packet)
    (hqueue : t.recoveryReady=r.recoveryReady) : Recovered since t packet := by
  intro need hneed
  have hrequested := h need hneed
  unfold BlobCacheResolver.Queues at *
  rw [hqueue]
  exact hrequested

lemma Admitted.passes {transaction : PendingTransaction} {indexed : List ℕ}
    (h : Admitted r transaction indexed t) : Passes platform [] r t where
  next := h.next ▸ Nat.le_succ _
  keeps hlt hkeeps := by
    rcases hkeeps with ⟨found,hsome,hpacket⟩ | ⟨item,hsome,hrebuilt⟩
    · exact Or.inl (Or.inl ⟨found,(h.lookup_of (Nat.ne_of_lt hlt)).trans hsome,hpacket⟩)
    · exact Or.inl (Or.inr ⟨item,by rw [h.ready]; exact hsome,hrebuilt⟩)
  recovered hrecovered := by
    rw [append_nil]
    exact hrecovered.of_queue h.queue

lemma Entered.passes {columns : List ColumnKey} (h : Entered r columns t) : Passes platform [] r t where
  next := h.next ▸ Nat.le_succ _
  keeps _ hkeeps := by
    refine Or.inl ?_
    unfold BlobCacheResolver.Keeps at *
    rw [h.pending,h.ready]
    exact hkeeps
  recovered hrecovered := by
    rw [append_nil]
    exact hrecovered.of_queue h.queue

lemma Passes.trans (h : Passes platform handed r s) (h' : Passes platform handed' s t) :
    Passes platform (handed++handed') r t where
  next := Nat.le_trans h.next h'.next
  keeps hlt hkeeps := by
    rcases h.keeps hlt hkeeps with hkeeps | hrecovered
    · exact (h'.keeps (Nat.lt_of_lt_of_le hlt h.next) hkeeps).imp id fun hrecovered =>
        hrecovered.widen (subset_append_right _ _)
    · exact Or.inr (h'.recovered hrecovered)
  recovered hrecovered := by
    rw [← append_assoc]
    exact h'.recovered (h.recovered hrecovered)

end Passing

namespace Session

def handedSince (session : Session) (birth : ℕ) : List ChunkResyncEvent :=
  (session.handed.filter fun request=>birth ≤ request.1).map Prod.snd

def Retains (platform : Platform) (session : Session) (offer : ℕ × PendingPacket) : Prop :=
  ∃ sequence, session.born sequence=offer.1 ∧ session.world.resolver.Keeps platform sequence offer.2

/-- Its reconstruction was popped. -/
def Emits (platform : Platform) (session : Session) (offer : ℕ × PendingPacket) : Prop :=
  ∃ emission ∈ session.emitted, emission.birth=offer.1 ∧ ∃ blob,
    (∀ hash ∈ offer.2.referencedBlobHashes, platform.clientBlobHash (blob hash) = hash) ∧
      emission.value = .packet (offer.2.splice blob)

def Requests (session : Session) (offer : ℕ × PendingPacket) : Prop :=
  Recovered (session.handedSince offer.1) session.world.resolver offer.2

structure Accounted (platform : Platform) (session : Session) : Prop where
  births : ∀ offer ∈ session.offers, offer.1 < session.clock
  accounted : ∀ offer ∈ session.offers,
    session.Retains platform offer ∨ session.Emits platform offer ∨ session.Requests offer

variable {session later : Session} {action : Action} {operation : Operation} {world : World}
  {offer : ℕ × PendingPacket}

variable {requests : List ChunkResyncEvent}

lemma handedSince_append {birth clock : ℕ} (h : later.handed=session.handed++requests.map fun event=>(clock,event))
    (hclock : birth ≤ clock) :
    later.handedSince birth=session.handedSince birth++requests := by
  unfold handedSince
  rw [h,filter_append,map_append]
  congr 1
  rw [filter_eq_self.2 fun request hmem=>?_,map_map]
  · exact map_id _
  · obtain ⟨event,-,rfl⟩ := mem_map.1 hmem
    exact decide_eq_true hclock

/-- What one operation keeps of the offers before it. -/
structure Carries (platform : Platform) (requests : List ChunkResyncEvent)
    (session later : Session) : Prop where
  clock : later.clock=session.clock+1
  born : ∀ sequence, sequence < session.world.resolver.nextReadySequence → later.born sequence=session.born sequence
  handed : later.handed=session.handed++requests.map fun event=>(session.clock,event)
  emitted : session.emitted ⊆ later.emitted

lemma Keeps.bounded (h : session.Sound platform) (hkeeps : session.world.resolver.Keeps platform sequence packet) :
    sequence < session.world.resolver.nextReadySequence :=
  h.chronicle.bounded (hkeeps.imp (fun ⟨transaction,hsome,_⟩=>⟨transaction,hsome⟩)
    fun ⟨item,hsome,_⟩=>Or.inl ⟨item,hsome⟩)

lemma Carries.accounted (h : session.Accounted platform)
    (hsound : session.Sound platform) (hcarries : Carries platform requests session later)
    (hpasses : Passes platform requests session.world.resolver later.world.resolver)
    (hmem : offer ∈ session.offers) :
    later.Retains platform offer ∨ later.Emits platform offer ∨ later.Requests offer := by
  have hsince := handedSince_append hcarries.handed (Nat.le_of_lt (h.births offer hmem))
  rcases h.accounted offer hmem with ⟨sequence,hborn,hkeeps⟩ | ⟨emission,hemission,hrest⟩ |
    hrequests
  · have hlt := Keeps.bounded hsound hkeeps
    rcases hpasses.keeps hlt hkeeps with hkeeps | hrecovered
    · exact Or.inl ⟨sequence,(hcarries.born sequence hlt).trans hborn,hkeeps⟩
    · refine Or.inr (Or.inr ?_)
      unfold Requests
      rw [hsince]
      exact hrecovered.widen (subset_append_right _ _)
  · exact Or.inr (Or.inl ⟨emission,hcarries.emitted hemission,hrest⟩)
  · refine Or.inr (Or.inr ?_)
    unfold Requests
    rw [hsince]
    exact hpasses.recovered hrequests

lemma Carries.of_accounted (h : session.Accounted platform)
    (hsound : session.Sound platform) (hcarries : Carries platform requests session later)
    (hpasses : Passes platform requests session.world.resolver later.world.resolver)
    (hoffers : ∀ offer ∈ later.offers, offer ∈ session.offers ∨ (offer.1=session.clock ∧
      (later.Retains platform offer ∨ later.Requests offer))) : later.Accounted platform where
  births offer hmem := by
    rw [hcarries.clock]
    rcases hoffers offer hmem with hmem | ⟨hclock,-⟩
    · exact Nat.lt_succ_of_lt (h.births offer hmem)
    · exact hclock ▸ Nat.lt_succ_self _
  accounted offer hmem := by
    rcases hoffers offer hmem with hmem | ⟨-,hretains | hrequests⟩
    · exact hcarries.accounted h hsound hpasses hmem
    · exact Or.inl hretains
    · exact Or.inr (Or.inr hrequests)

lemma numbered_born (operation : Operation) (world : World) {sequence : ℕ}
    (hlt : sequence < session.world.resolver.nextReadySequence) :
    (session.numbered operation world).born sequence=session.born sequence := by
  unfold numbered
  dsimp only
  split
  · exact Function.update_of_ne (Nat.ne_of_lt hlt) _ _
  · rfl

section

variable (h : session.Accounted platform)
include h

lemma Accounted.offered {status : BlobCacheStatus}
    (hsound : session.Sound platform) (hpacket : operation.offered=some packet)
    (hoffered : Offered platform packet status session.world.resolver world.resolver) :
    (session.record operation (session.numbered operation world) (.status status)).Accounted
      platform := by
  set later := session.record operation (session.numbered operation world) (.status status) with hlater
  have hcarries : Carries platform status.recovery.toList session later :=
    ⟨rfl,fun _ hlt=>numbered_born operation world hlt,rfl,fun _=>id⟩
  have hsince : status.recovery.toList ⊆ later.handedSince session.clock := by
    rw [handedSince_append hcarries.handed (Nat.le_refl _)]
    exact subset_append_right _ _
  have hnew : ∀ offer ∈ later.offers, offer ∈ session.offers ∨
      (offer = (session.clock,packet) ∧ status.counts packet=true) := by
    intro offer hmem
    rcases mem_append.1 hmem with hmem | hmem
    · exact Or.inl hmem
    · obtain ⟨found,hfound,rfl⟩ := mem_map.1 hmem
      obtain ⟨hfound,hcounts⟩ := mem_filter.1 hfound
      rw [hpacket,Option.mem_toList] at hfound
      cases hfound
      exact Or.inr ⟨rfl,hcounts⟩
  cases hoffered with
  | skipped hevolves haccepted hrecovered =>
    refine hcarries.of_accounted h hsound hevolves.passes fun offer hmem =>
      (hnew offer hmem).imp id ?_
    rintro ⟨rfl,hcounts⟩
    refine ⟨rfl,Or.inr ?_⟩
    cases packet with
    | levelChunk chunk => exact (hrecovered chunk rfl).widen hsince
    | subChunk reply =>
      rw [BlobCacheStatus.counts,haccepted] at hcounts
      cases hcounts
  | @admitted before admitted transaction indexed handed handed' hbefore hadmitted hsame hcolumns
      hafter hhanded haccepted =>
    have hpasses :
        Passes platform status.recovery.toList session.world.resolver world.resolver := by
      have hchain := (hbefore.passes.trans hadmitted.passes).trans hafter.passes
      rw [append_nil,← hhanded] at hchain
      exact hchain
    refine hcarries.of_accounted h hsound hpasses fun offer hmem=>(hnew offer hmem).imp id ?_
    rintro ⟨rfl,-⟩
    refine ⟨rfl,?_⟩
    have hkeeps : admitted.Keeps platform before.nextReadySequence packet :=
      Or.inl ⟨transaction,hadmitted.lookup_self,hsame⟩
    have hnext : world.resolver.nextReadySequence=session.world.resolver.nextReadySequence+1 := by
      rw [hafter.next,hadmitted.next,hbefore.next]
    have hborn : later.born before.nextReadySequence=session.clock := by
      change (session.numbered operation world).born _=_
      rw [(numbered_of_taken hnext).1,hbefore.next,Function.update_self]
    rcases hafter.keeps hkeeps with hkeeps | hrecovered
    · exact Or.inl ⟨before.nextReadySequence,hborn,hkeeps⟩
    · have hlast : handed' ⊆ status.recovery.toList := by
        rw [hhanded]
        exact subset_append_right _ _
      exact Or.inr (hrecovered.widen fun _ hmem=>hsince (hlast hmem))

/-- An operation that hands out nothing and offers nothing. -/
lemma Accounted.numbered (hsound : session.Sound platform)
    (hpasses : Passes platform [] session.world.resolver world.resolver) :
    (session.numbered operation world).Accounted platform := by
  have hcarries : Carries platform [] session (session.numbered operation world) :=
    ⟨rfl,fun _ hlt=>numbered_born operation world hlt,(append_nil _).symm,fun _=>id⟩
  exact hcarries.of_accounted h hsound hpasses fun _=>Or.inl

lemma Accounted.requested {event : ChunkResyncEvent} (hsound : session.Sound platform)
    (hpasses : Passes platform [event] session.world.resolver world.resolver) :
    Accounted platform { session.numbered operation world with
      handed := session.handed ++ [(session.clock,event)] } := by
  have hcarries : Carries platform [event] session { session.numbered operation world with
      handed := session.handed ++ [(session.clock,event)] } :=
    ⟨rfl,fun _ hlt=>numbered_born operation world hlt,rfl,fun _=>id⟩
  exact hcarries.of_accounted h hsound hpasses fun _=>Or.inl

end

end Session

section Leaving

/-- A pop leaves every other packet retained. -/
lemma Left.keeps {popped : Popped} (h : Left r popped t)
    (hkeeps : r.Keeps platform sequence packet) : t.Keeps platform sequence packet ∨
      ∃ item, popped = .cached sequence item ∧ r.ready[sequence]? = some item ∧
        Rebuilt platform packet item.value := by
  rcases hkeeps with ⟨transaction,hsome,hpacket⟩ | ⟨item,hsome,hrebuilt⟩
  · exact Or.inl (Or.inl ⟨transaction,by rw [h.pending]; exact hsome,hpacket⟩)
  · by_cases hpopped : popped = .cached sequence item
    · exact Or.inr ⟨item,hpopped,hsome,hrebuilt⟩
    · exact Or.inl (Or.inr ⟨item,(h.ready _ _).2 ⟨hsome,hpopped⟩,hrebuilt⟩)

end Leaving

namespace Session

variable {session : Session} {action : Action} {operation : Operation} {world : World}

lemma Accounted.emitted {popped : Popped} {left : BlobCacheResolver}
    (h : session.Accounted platform) (hsound : session.Sound platform)
    (hleft : Left session.world.resolver popped left)
    (hevolves : Evolves platform [] left world.resolver) :
    Accounted platform { session.numbered operation world with
      emitted := session.emitted ++ [emission popped session.born session.origin
        session.world.resolver popped.item.value.intoPublic] } where
  births offer hmem := Nat.lt_succ_of_lt (h.births offer hmem)
  accounted offer hmem := by
    have hrequested : ∀ {r : BlobCacheResolver}, Recovered (session.handedSince offer.1) r offer.2 →
        Evolves platform [] r world.resolver →
        Recovered (session.handedSince offer.1) world.resolver offer.2 := by
      intro r hrecovered hevolves
      have hpassed := hevolves.recovered hrecovered
      rw [append_nil] at hpassed
      exact hpassed
    rcases h.accounted offer hmem with ⟨sequence,hborn,hkeeps⟩ | ⟨found,hfound,hrest⟩ |
      hrequests
    · have hlt := Keeps.bounded hsound hkeeps
      rcases hleft.keeps hkeeps with hkeeps | ⟨item,rfl,hsome,blob,hdigest,hvalue⟩
      · rcases hevolves.keeps hkeeps with hkeeps | hrecovered
        · exact Or.inl ⟨sequence,(numbered_born operation world hlt).trans hborn,hkeeps⟩
        · exact Or.inr (Or.inr (hrecovered.widen (nil_subset _)))
      · refine Or.inr (Or.inl ⟨_,mem_append_right _ (mem_singleton_self _),hborn, blob,hdigest,?_⟩)
        change item.value.intoPublic=_
        rw [hvalue]
        rfl
    · exact Or.inr (Or.inl ⟨found,mem_append_left _ hfound,hrest⟩)
    · exact Or.inr (Or.inr (hrequested (hrequests.of_queue hleft.queue) hevolves))

lemma record_eq (session later : Session) (operation : Operation) (reply : Reply) :
    ∃ offers handed answered emitted, session.record operation later reply =
      { later with
        offers := offers
        handed := handed
        answered := answered
        emitted := emitted } := by
  unfold record
  split
  · exact ⟨_,_,_,_,rfl⟩
  · exact ⟨_,_,_,_,rfl⟩
  · split
    · exact ⟨_,_,_,_,rfl⟩
    · exact ⟨_,_,_,_,rfl⟩
    · exact ⟨_,_,_,_,rfl⟩
  · exact ⟨_,_,_,_,rfl⟩

lemma Accounted.step (hsound : session.Sound platform)
    (h : session.faults = [] → session.resets=0 → session.Accounted platform)
    (hfaults : (session.step platform action).faults = [])
    (hresets : (session.step platform action).resets=0) :
    (session.step platform action).Accounted platform := by
  have hspec := runOperation_spec action.operation (hsound.start action)
  unfold Meets at hspec
  unfold Session.step at *
  cases hrun : runOperation platform action.operation (session.start action) with
  | error fault t =>
    rw [hrun] at hfaults
    exact absurd hfaults (append_ne_nil_of_right_ne_nil _ (cons_ne_nil _ _))
  | ok reply t =>
    rw [hrun] at hspec hfaults hresets
    obtain ⟨-,hprogress⟩ := hspec
    dsimp only at hfaults hresets ⊢
    obtain ⟨offers,handed,answered,emitted,heq⟩ := record_eq session
      (session.numbered action.operation t) action.operation reply
    rw [heq] at hfaults hresets
    have haccounted := h hfaults (Nat.eq_zero_of_add_eq_zero_right hresets)
    cases hprogress with
    | offered hoffered hreply hoffer =>
      subst hreply
      exact haccounted.offered hsound hoffered hoffer
    | arrived hreply hentered hevolves =>
      subst hreply
      exact haccounted.numbered hsound (hentered.passes.trans hevolves.passes)
    | evolved hreply hevolves =>
      rcases hreply with rfl | rfl
      · exact haccounted.numbered hsound hevolves.passes
      · exact haccounted.numbered hsound hevolves.passes
    | requested hrecovery hreply hevolves =>
      subst hreply
      have hrecovery : session.world.resolver.nextRecovery=some _ := hrecovery
      unfold Session.record
      rw [hrecovery]
      exact haccounted.requested hsound hevolves.passes
    | emitted hrecovery hnext hreply hleft hevolves =>
      subst hreply
      have hrecovery : session.world.resolver.nextRecovery=none := hrecovery
      have hnext : session.world.resolver.nextReady=some _ := hnext
      unfold Session.record
      rw [hrecovery,hnext]
      exact haccounted.emitted hsound hleft hevolves
    | cleared hreset hreply _ =>
      have hcount := Nat.eq_zero_of_add_eq_zero_left hresets
      rw [if_pos hreset] at hcount
      cases hcount

lemma Accounted.run (actions : List Action) (hfaults : (Session.run platform actions).faults = [])
    (hresets : (Session.run platform actions).resets=0) :
    (Session.run platform actions).Accounted platform := by
  suffices hfold : ∀ (actions : List Action) (session : Session), session.Sound platform →
      (session.faults = [] → session.resets=0 → session.Accounted platform) →
      (actions.foldl (Session.step platform) session).faults = [] →
      (actions.foldl (Session.step platform) session).resets=0 →
      (actions.foldl (Session.step platform) session).Accounted platform by
    refine hfold actions {} Sound.init (fun _ _=>⟨fun _ hmem=>?_,fun _ hmem=>?_⟩) hfaults hresets
    · exact absurd hmem not_mem_nil
    · exact absurd hmem not_mem_nil
  intro actions
  induction actions with
  | nil => exact fun _ _ h=>h
  | cons action actions ih =>
    exact fun session hsound h=>ih _ hsound.step fun hfaults hresets =>
      Accounted.step hsound h hfaults hresets

end Session

end Cinnabar.BlobCache
