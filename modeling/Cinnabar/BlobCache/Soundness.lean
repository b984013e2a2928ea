import Cinnabar.BlobCache.History

/-! # What every run keeps -/

namespace Cinnabar.BlobCache

open Std List

variable {platform : Platform} {session : Session} {action : Action} {operation : Operation}
  {world t : World}

section Moving

inductive Moves (platform : Platform) (operation : Operation) (r t : BlobCacheResolver) : Prop
  | descends (h : Descends platform r t)
  | enlarges {before enlarged : BlobCacheResolver} (hbefore : Descends platform r before)
      (h : Enlarges operation.offered before enlarged) (hafter : Descends platform enlarged t)
  | cleared (h : t = .reset)

lemma Descends.refl {r : BlobCacheResolver} : Descends platform r r := Evolves.refl.descends

lemma Descends.trans {r s t : BlobCacheResolver} (h : Descends platform r s)
    (h' : Descends platform s t) : Descends platform r t where
  next := h'.next.trans h.next
  pending hsome := by
    obtain ⟨later,hs,hpacket,hcolumns⟩ := h'.pending hsome
    obtain ⟨earlier,hr,hpacket',hcolumns'⟩ := h.pending hs
    exact ⟨earlier,hr,hpacket.trans hpacket',hcolumns.trans hcolumns'⟩
  ready hsome := by
    rcases h'.ready hsome with hs | ⟨transaction,hs,hcolumns,hrebuilt⟩
    · exact h.ready hs
    · obtain ⟨earlier,hr,hpacket,hcolumns'⟩ := h.pending hs
      exact Or.inr ⟨earlier,hr,hcolumns.trans hcolumns',hpacket ▸ hrebuilt⟩
  immediate hsome := h.immediate (h'.immediate hsome)

lemma Breakage.moves {r t : BlobCacheResolver} (h : Breakage platform r t) :
    Moves platform operation r t := by
  cases h with
  | evolved h => exact .descends h.descends
  | arrived hentered h => exact .enlarges .refl hentered.enlarges h.descends
  | left hleft h => exact .descends (hleft.descends.trans h.descends)
  | cleared h => exact .cleared h

lemma Progress.moves {reply : Reply} {r t : BlobCacheResolver}
    (h : Progress platform operation reply r t) : Moves platform operation r t := by
  cases h with
  | offered hoffered hreply h =>
    cases h with
    | skipped hevolves => exact .descends hevolves.descends
    | admitted hbefore hadmitted hpacket hcolumns hafter hhanded haccepted =>
      refine .enlarges hbefore.descends ?_ hafter.descends
      rw [hoffered,← hpacket]
      exact hadmitted.enlarges
  | arrived hreply hentered h => exact .enlarges .refl hentered.enlarges h.descends
  | evolved hreply h => exact .descends h.descends
  | requested hrecovery hreply h => exact .descends h.descends
  | emitted hrecovery hnext hreply hleft h => exact .descends (hleft.descends.trans h.descends)
  | cleared hreset hreply h => exact .cleared h

namespace Session

/-- The history of the session's lanes. -/
def Chronicled (platform : Platform) (session : Session) : Prop :=
  Chronicle platform session.clock session.born session.origin session.emitted session.world.resolver

lemma numbered_of_next (h : t.resolver.nextReadySequence≠session.world.resolver.nextReadySequence+1) :
    (session.numbered operation t).born=session.born ∧ (session.numbered operation t).origin=session.origin :=
  ⟨if_neg h,if_neg h⟩

lemma numbered_of_taken (h : t.resolver.nextReadySequence=session.world.resolver.nextReadySequence+1) :
    (session.numbered operation t).born =
        Function.update session.born session.world.resolver.nextReadySequence session.clock ∧
      (session.numbered operation t).origin=Function.update session.origin
        session.world.resolver.nextReadySequence operation.offered :=
  ⟨if_pos h,if_pos h⟩

lemma Chronicled.numbered (h : session.Chronicled platform)
    (hmoves : Moves platform operation session.world.resolver t.resolver) :
    (session.numbered operation t).Chronicled platform := by
  change Chronicle platform (session.clock+1) _ _ session.emitted t.resolver
  cases hmoves with
  | descends hdescends =>
    have hnext : t.resolver.nextReadySequence≠session.world.resolver.nextReadySequence+1 := by
      rw [hdescends.next]
      exact (Nat.succ_ne_self _).symm
    rw [(numbered_of_next hnext).1,(numbered_of_next hnext).2]
    exact Chronicle.descends h hdescends (Nat.le_succ _)
  | enlarges hbefore henlarges hafter =>
    have hnext : t.resolver.nextReadySequence=session.world.resolver.nextReadySequence+1 := by
      rw [hafter.next,henlarges.next,hbefore.next]
    rw [(numbered_of_taken hnext).1,(numbered_of_taken hnext).2,← hbefore.next]
    have hgrown := (Chronicle.descends h hbefore (Nat.le_refl _)).enlarged henlarges
    exact hgrown.descends hafter (Nat.le_refl _)
  | cleared hreset =>
    have hnext : t.resolver.nextReadySequence≠session.world.resolver.nextReadySequence+1 := by
      rw [hreset]
      exact (Nat.succ_ne_zero _).symm
    rw [(numbered_of_next hnext).1,(numbered_of_next hnext).2,hreset]
    exact Chronicle.cleared h (Nat.le_succ _)

end Session

end Moving

/-- The original packet with its references replaced by blobs of their digests, in order. -/
def Emission.Faithful (platform : Platform) (emission : Emission) : Prop :=
  ∀ sequence item, emission.popped = .cached sequence item → ∃ packet blob, emission.origin=some packet ∧
      (∀ hash ∈ packet.referencedBlobHashes, platform.clientBlobHash (blob hash) = hash) ∧
      emission.value = .packet (packet.splice blob)

namespace Session

structure Sound (platform : Platform) (session : Session) : Prop where
  consistent : Consistent platform [] [] session.world
  resolved : session.world.resolver.resolvedPending = ∅
  unstuck : ∀ sequence, ¬session.world.resolver.Stuck sequence
  chronicle : session.Chronicled platform
  ordered : session.emitted.Pairwise Emission.Precedes
  once : session.emitted.Pairwise fun first second=>first.birth≠second.birth
  faithful : ∀ emission ∈ session.emitted, emission.Faithful platform
  harmless : ∀ fault ∈ session.faults, fault.Harmless

namespace Sound

lemma init : Sound platform {} where
  consistent := consistent_init
  resolved := rfl
  unstuck sequence := by
    rintro ⟨-,transaction,hsome,-⟩
    simp at hsome
  chronicle := by
    have hholds : ∀ {sequence : ℕ}, ¬({} : BlobCacheResolver).Holds sequence := by
      rintro sequence (⟨found,hsome⟩ | ⟨found,hsome⟩ | ⟨found,hsome⟩) <;> simp at hsome
    exact {
      bounded := fun h=>absurd h hholds
      below := fun h=>absurd h (Nat.not_lt_zero _)
      increasing := fun _ h=>absurd h (Nat.not_lt_zero _)
      pendingOrigin := fun h=>absurd (Or.inl ⟨_,h⟩) hholds
      readyOrigin := fun h=>absurd (Or.inr (Or.inl ⟨_,h⟩)) hholds
      spentBelow := fun h=>absurd h not_mem_nil
      spent := fun h=>absurd h not_mem_nil
      later := fun h=>absurd h not_mem_nil
      laterOrdinary := fun h=>absurd h not_mem_nil }
  ordered := .nil
  once := .nil
  faithful _ hmem := absurd hmem not_mem_nil
  harmless _ hmem := absurd hmem not_mem_nil

section

variable (h : session.Sound platform)
include h

lemma start (action : Action) : Consistent platform [] [] (session.start action) :=
  h.consistent.of_fields rfl rfl rfl rfl rfl rfl rfl rfl subset_rfl

lemma numbered (hkeeping : Keeping platform (session.start action) t)
    (hmoves : Moves platform operation session.world.resolver t.resolver) :
    (session.numbered operation t).Sound platform where
  consistent := hkeeping.consistent
  resolved := hkeeping.resolved h.resolved
  unstuck sequence hstuck := h.unstuck sequence (hkeeping.stuck hstuck)
  chronicle := h.chronicle.numbered hmoves
  __ := h

lemma noted {offers : List (ℕ × PendingPacket)}
    {handed : List (ℕ × ChunkResyncEvent)} {answered : List ChunkResyncEvent} :
    Sound platform { session with offers := offers, handed := handed, answered := answered } :=
  ⟨h.consistent,h.resolved,h.unstuck,h.chronicle,h.ordered,h.once,h.faithful,h.harmless⟩

lemma faulted {fault : Fault} (hfault : fault.Harmless) :
    Sound platform { session with faults := session.faults ++ [fault] } :=
  { h with
    harmless := fun found hmem=>by
      rcases mem_append.1 hmem with hmem | hmem
      · exact h.harmless found hmem
      · rw [mem_singleton.1 hmem]
        exact hfault }

/-- A pop adds its emission. -/
lemma emitted {popped : Popped} {left : BlobCacheResolver} (hkeeping : Keeping platform (session.start action) t)
    (hnext : session.world.resolver.nextReady=some popped)
    (hleft : Left session.world.resolver popped left)
    (hevolves : Evolves platform [] left t.resolver) :
    Sound platform { session.numbered operation t with
      emitted := session.emitted ++ [emission popped session.born session.origin
        session.world.resolver popped.item.value.intoPublic] } := by
  have hdescends : Descends platform session.world.resolver t.resolver := hleft.descends.trans hevolves.descends
  have hnumbered : Sound platform (session.numbered operation t) := h.numbered hkeeping (.descends hdescends)
  obtain ⟨hlane,-,-⟩ := nextReady_spec hnext
  have htaken : t.resolver.nextReadySequence≠session.world.resolver.nextReadySequence+1 := by
    rw [hdescends.next]
    exact (Nat.succ_ne_self _).symm
  refine { hnumbered with
    chronicle := ?_
    ordered := ?_
    once := ?_
    faithful := ?_ }
  · change Chronicle platform (session.clock+1) _ _ _ t.resolver
    rw [(numbered_of_next htaken).1,(numbered_of_next htaken).2]
    exact (Chronicle.emits h.chronicle h.consistent hnext hleft).descends hevolves.descends (Nat.le_succ _)
  · refine pairwise_append.2 ⟨h.ordered,pairwise_singleton _ _,?_⟩
    intro found hmem last hlast
    rw [mem_singleton.1 hlast]
    exact Chronicle.precedes h.chronicle hlane hmem
  · refine pairwise_append.2 ⟨h.once,pairwise_singleton _ _,?_⟩
    intro found hmem last hlast
    rw [mem_singleton.1 hlast]
    exact (h.chronicle.spent hmem hlane.holds).symm
  · intro found hmem
    rcases mem_append.1 hmem with hmem | hmem
    · exact h.faithful found hmem
    · rw [mem_singleton.1 hmem]
      rintro sequence item hpopped
      subst hpopped
      obtain ⟨packet,horigin,blob,hdigest,hvalue⟩ := h.chronicle.readyOrigin hlane
      refine ⟨packet,blob,horigin,hdigest,?_⟩
      change item.value.intoPublic=_
      rw [hvalue]
      rfl

lemma step : (session.step platform action).Sound platform := by
  have hspec := runOperation_spec action.operation (h.start action)
  unfold Meets at hspec
  unfold Session.step
  cases hrun : runOperation platform action.operation (session.start action) with
  | error fault t =>
    rw [hrun] at hspec
    exact (h.numbered hspec.2.1 hspec.2.2.moves).faulted hspec.1
  | ok reply t =>
    rw [hrun] at hspec
    obtain ⟨hkeeping,hprogress⟩ := hspec
    have hnumbered := h.numbered hkeeping hprogress.moves
    cases hprogress with
    | offered hoffered hreply _ =>
      subst hreply
      exact hnumbered.noted
    | arrived hreply _ _ =>
      subst hreply
      exact hnumbered
    | evolved hreply _ =>
      rcases hreply with rfl | rfl
      · exact hnumbered
      · exact hnumbered
    | requested hrecovery hreply _ =>
      subst hreply
      have hrecovery : session.world.resolver.nextRecovery=some _ := hrecovery
      unfold Session.record
      rw [hrecovery]
      exact hnumbered.noted
    | emitted hrecovery hnext hreply hleft hevolves =>
      subst hreply
      have hrecovery : session.world.resolver.nextRecovery=none := hrecovery
      have hnext : session.world.resolver.nextReady=some _ := hnext
      unfold Session.record
      rw [hrecovery,hnext]
      exact h.emitted hkeeping hnext hleft hevolves
    | cleared _ hreply _ =>
      subst hreply
      exact hnumbered

end

lemma run (actions : List Action) : (Session.run platform actions).Sound platform := by
  suffices hfold : ∀ (actions : List Action) (session : Session), session.Sound platform →
      (actions.foldl (Session.step platform) session).Sound platform from hfold actions {} init
  intro actions
  induction actions with
  | nil => exact fun _ h=>h
  | cons action actions ih => exact fun session h=>ih _ h.step

end Sound

end Session

end Cinnabar.BlobCache
