import Cinnabar.Ingest.Release

/-! # Skipping terrain never starves ready work -/

namespace Cinnabar.Ingest

open Finset

variable {S V O : Type}

namespace OrderedCommitState

variable {s : OrderedCommitState S V O}

def CouldCommit (s : OrderedCommitState S V O) (couple : Bool) (n : ℕ) : Prop :=
  s.isPartialBatch n=true ∨ ∃ entry event, s.Unblocked couple n entry event

/-- Passes of one allowance with each step finished at once: how many looked ahead to chunk data,
and how many committed something else. -/
inductive Passes (budget : CommitBudget) : OrderedCommitState S V O → ℕ → ℕ →
    OrderedCommitState S V O → Prop
  | refl (s : OrderedCommitState S V O) : Passes budget s 0 0 s
  | other {s s' t : OrderedCommitState S V O} {step : CommitStep S V O} {n chunks others : ℕ}
      {entry : Entry S V O} {event : PreparedWorldEvent S V O}
      (hnext : s.nextCommitWithin budget=some (some step,s')) (htaken : s'.taken=some n)
      (hfound : s.Unblocked budget.couplePosition n entry event)
      (hother : isHeavyChunkData entry.footprint=false)
      (hrest : Passes budget s'.finishStep chunks others t) : Passes budget s chunks (others+1) t
  | chunk {s s' t : OrderedCommitState S V O} {step : CommitStep S V O} {n chunks others : ℕ}
      (hnext : s.nextCommitWithin budget=some (some step,s')) (htaken : s'.taken=some n)
      (hahead : s.LooksAhead budget n) (hrest : Passes budget s'.finishStep chunks others t) :
    Passes budget s (chunks+1) others t

end OrderedCommitState

open OrderedCommitState

namespace Ledger

variable {l : Ledger S V O} {s' : OrderedCommitState S V O} {capacity first n m : ℕ}
  {budget : CommitBudget} {step : CommitStep S V O} {entry : Entry S V O}
  {event : PreparedWorldEvent S V O}

/-- Finishing what a pass returned is a call like any other. -/
lemma Reachable.pass (h : Reachable capacity first l) (hnext : l.order.nextCommitWithin budget=some (some step,s')) :
    ∃ l', Reachable capacity first l' ∧ l'.order=s'.finishStep := by
  have hstep := h.step (.nextCommitWithin budget hnext)
  unfold finishStep
  split
  next n happlying => exact ⟨_,hstep.step (.finishCommit n),rfl⟩
  next => exact ⟨_,hstep,rfl⟩

lemma Reachable.releases (hfirst : 0<first) (hheavy : budget.heavy=true)
    (hchunk : budget.chunkData=false) (hevent : event.isSubChunks=false) (k : ℕ)
    (h : Reachable capacity first l) (hidle : l.order.applying=none)
    (hm : l.order.Releasable budget.couplePosition m entry event)
    (hk : l.order.chunkSteps m+l.order.otherEvents≤k) :
    ∃ chunks others t, Passes budget l.order chunks others t ∧ t.Popped m ∧
      chunks≤l.order.chunkSteps m ∧ others≤l.order.otherEvents := by
  induction k generalizing l with
  | zero =>
    obtain ⟨s',-,hno⟩ | ⟨step,s',n,hnext,htaken,hstarts,hfound⟩ :=
      nextCommitWithin_spec (h.sound hfirst).shape hidle hheavy hchunk
    · exact absurd hm (hno m entry event)
    · have hs := (h.sound hfirst).shape
      have hafter := (nextCommitWithin_commits hs.runs hs.positive hnext).after hs hidle htaken hstarts
      rcases hfound with ⟨found,popped,hunblocked,hother⟩ | hahead
      · have hleft := hafter.takesOther (m := m) hunblocked hother
        omega
      · have hleft := hafter.looksAhead hs hahead hm
        omega
  | succ k ih =>
    obtain ⟨s',-,hno⟩ | ⟨step,s',n,hnext,htaken,hstarts,hfound⟩ :=
      nextCommitWithin_spec (h.sound hfirst).shape hidle hheavy hchunk
    · exact absurd hm (hno m entry event)
    · have hs := (h.sound hfirst).shape
      have hafter := (nextCommitWithin_commits hs.runs hs.positive hnext).after hs hidle htaken hstarts
      obtain ⟨l',hl',horder⟩ := h.pass hnext
      rw [← horder] at hafter
      -- the passes after this one, where they are needed
      have hrest : l'.order.chunkSteps m+l'.order.otherEvents≤k →
          ∃ chunks others t, Passes budget l'.order chunks others t ∧ t.Popped m ∧
            chunks≤l'.order.chunkSteps m ∧ others≤l'.order.otherEvents := by
        intro hless
        rcases hafter.releasable (hl'.sound hfirst).shape hevent hm with hpopped | hagain
        · exact ⟨0,0,l'.order,.refl _,hpopped,Nat.zero_le _,Nat.zero_le _⟩
        · exact ih hl' hafter.idle hagain hless
      rcases hfound with ⟨found,popped,hunblocked,hother⟩ | hahead
      · have hleft := hafter.takesOther (m := m) hunblocked hother
        obtain ⟨chunks,others,t,hpasses,hpopped,hchunks,hothers⟩ := hrest (by omega)
        rw [horder] at hpasses
        exact ⟨chunks,others+1,t,.other hnext htaken hunblocked hother hpasses,hpopped, by omega,by omega⟩
      · have hleft := hafter.looksAhead hs hahead hm
        obtain ⟨chunks,others,t,hpasses,hpopped,hchunks,hothers⟩ := hrest (by omega)
        rw [horder] at hpasses
        exact ⟨chunks+1,others,t,.chunk hnext htaken hahead hpasses,hpopped,by omega,by omega⟩

/-- A pass finds a step exactly while ready work waits on chunk data that progresses, or on nothing;
the full allowance could take that step too; and so many passes at most release the work. -/
theorem skipping_never_starves (hfirst : 0 < first) (h : Reachable capacity first l)
    (hidle : l.order.applying=none) (hheavy : budget.heavy=true)
    (hchunk : budget.chunkData=false) :
    ((∃ step s', l.order.nextCommitWithin budget = some (some step,s')) ↔
        ∃ n entry event, l.order.Releasable budget.couplePosition n entry event) ∧
      (∀ step s', l.order.nextCommitWithin budget = some (some step,s') →
        ∃ n, s'.taken = some n ∧ l.order.CouldCommit budget.couplePosition n) ∧
      ∀ n entry event, l.order.Releasable budget.couplePosition n entry event →
        event.isSubChunks=false → ∃ chunks others t, Passes budget l.order chunks others t ∧
          t.Popped n ∧ chunks ≤ l.order.chunkSteps n ∧ others ≤ l.order.otherEvents := by
  refine ⟨?_,?_,fun n entry event hn hevent =>
    h.releases hfirst hheavy hchunk hevent _ hidle hn (le_refl _)⟩
  · rcases nextCommitWithin_spec (h.sound hfirst).shape hidle hheavy hchunk with
      ⟨s',hnext,hno⟩ | ⟨step,s',n,hnext,-,-,hfound⟩
    · refine iff_of_false ?_ fun ⟨n,entry,event,hn⟩ => hno n entry event hn
      rintro ⟨step,other,hsome⟩
      rw [hnext] at hsome
      cases hsome
    · refine iff_of_true ⟨step,s',hnext⟩ ?_
      rcases hfound with ⟨entry,event,hunblocked,hother⟩ | hahead
      · exact ⟨n,entry,event,hunblocked.releasable hother⟩
      · exact hahead.work
  · intro step s' hsome
    rcases nextCommitWithin_spec (h.sound hfirst).shape hidle hheavy hchunk with
      ⟨other,hnext,-⟩ | ⟨other,after,n,hnext,htaken,-,hfound⟩
    · rw [hnext] at hsome
      cases hsome
    · rw [hnext] at hsome
      cases hsome
      refine ⟨n,htaken,?_⟩
      rcases hfound with ⟨entry,event,hunblocked,-⟩ | hahead
      · exact .inr ⟨entry,event,hunblocked⟩
      · exact hahead.chunk.imp id fun ⟨entry,event,hunblocked,_⟩ => ⟨entry,event,hunblocked⟩

def terrain (heavy : Bool) : Footprint := { heavy := heavy, columns := {⟨0,0,0⟩} }

variable (slot : Slot Unit Unit Unit)

/-- Chunk data, and a second event. -/
def behindTerrain (second : Entry Unit Unit Unit) (light heavy : ℕ) :
    OrderedCommitState Unit Unit Unit :=
  { frontier := 1
    entries := ((∅ : Finmap fun _ : ℕ=>Entry Unit Unit Unit).insert 1 ⟨terrain true,.heavy,slot⟩).insert 2 second
    unfinished := 2
    light := light
    heavy := heavy }

variable {second : Entry Unit Unit Unit}

lemma releasable_second {couple : Bool} {slot : Slot Unit Unit Unit} {event : PreparedWorldEvent Unit Unit Unit} {light heavy : ℕ}
    (hslot : second.slot = .ready event) (hother : isHeavyChunkData second.footprint=false)
    (hwaits : (terrain true).conflicts couple second.footprint=true → ∃ chunk, slot = .ready chunk) :
    (behindTerrain slot second light heavy).Releasable couple 2 second event := by
  have hsecond : (behindTerrain slot second light heavy).entries.lookup 2=some second := Finmap.lookup_insert _
  have hfirst : (behindTerrain slot second light heavy).entries.lookup 1=some ⟨terrain true,.heavy,slot⟩ := by
    change (Finmap.insert 2 _ _).lookup 1=_
    rw [Finmap.lookup_insert_of_ne _ (by decide),Finmap.lookup_insert]
  have hfree : ∀ event, (behindTerrain slot second light heavy).kindIsFree event=true := by
    intro event
    cases event <;> rfl
  refine ⟨⟨show 1≤2 from Nat.le_succ 1,hsecond,hslot,hfree event,fun m hm hlt=>?_⟩,hother,?_⟩
  · change 1 ≤ m at hm
    have hm' : m=1 := by omega
    rw [hm',hfirst]
    exact .inl rfl
  · intro m other hlt hlook hconflicts
    obtain rfl | rfl : m=0 ∨ m=1 := by omega
    · cases hlook
    · cases hlook
      obtain ⟨chunk,rfl⟩ := hwaits hconflicts
      refine .mk hfirst (show isHeavyChunkData (terrain true) = true by decide) (.inl (hfree chunk))
        (fun k hk hlt=>absurd hlt hk.not_gt) ?_
      intro k before hlt hbefore
      obtain rfl : k=0 := by omega
      cases hbefore

lemma reachable_terrain (chunk : PreparedWorldEvent Unit Unit Unit) :
    Reachable 0 1 (⟨{ behindTerrain (.ready chunk) ⟨{},.light,.waiting⟩ 0 1 with
      entries := (∅ : Finmap fun _ : ℕ=>Entry Unit Unit Unit).insert 1 ⟨terrain true,.heavy,.ready chunk⟩
      unfinished := 1 },fun _=>False,none⟩ : Ledger Unit Unit Unit) := by
  have hadmit : Reachable 0 1 (⟨{ behindTerrain .waiting ⟨{},.light,.waiting⟩ 0 1 with
      entries := (∅ : Finmap fun _ : ℕ=>Entry Unit Unit Unit).insert 1 ⟨terrain true,.heavy,.waiting⟩
      unfinished := 1 },fun _=>False,none⟩ : Ledger Unit Unit Unit) :=
    Reachable.new.step (.admitEntry 1 (terrain true) 0 rfl)
  exact hadmit.step (.insertReady 1 chunk rfl)

lemma reachable_light (chunk event : PreparedWorldEvent Unit Unit Unit) :
    Reachable 0 1 (⟨behindTerrain (.ready chunk) ⟨terrain false,.light,.ready event⟩ 1 1,
      fun _=>False,none⟩ : Ledger Unit Unit Unit) := by
  have hadmit : Reachable 0 1 (⟨behindTerrain (.ready chunk) ⟨terrain false,.light,.waiting⟩ 1 1,
      fun _=>False,none⟩ : Ledger Unit Unit Unit) :=
    (reachable_terrain chunk).step (.admitEntry 2 (terrain false) 0 rfl)
  exact hadmit.step (.insertReady 2 event rfl)

theorem skipping_never_starves_light : ∃ chunks others t, Passes ⟨true,false,true⟩ (behindTerrain (.ready (.other ()))
        ⟨terrain false,.light,.ready .commitOnly⟩ 1 1 : OrderedCommitState Unit Unit Unit)
          chunks others t ∧ t.Popped 2 ∧
      chunks ≤ (behindTerrain (.ready (.other ())) ⟨terrain false,.light,.ready .commitOnly⟩ 1 1).chunkSteps 2 ∧
      others ≤ (behindTerrain (.ready (.other ())) ⟨terrain false,.light,.ready .commitOnly⟩ 1 1).otherEvents :=
  (skipping_never_starves (by decide) (reachable_light (.other ()) .commitOnly) rfl rfl rfl).2.2 2 _ _
    (releasable_second rfl (by decide) fun _=>⟨_,rfl⟩) rfl

/-- A local movement behind chunk data being decoded. -/
lemma reachable_positional :
    Reachable 0 1 (⟨behindTerrain .waiting ⟨{ positional := true },.light,.ready .commitOnly⟩ 1 1,
      fun _=>False,none⟩ : Ledger Unit Unit Unit) := by
  have hfirst : Reachable 0 1 (⟨{ behindTerrain .waiting ⟨{},.light,.waiting⟩ 0 1 with
      entries := (∅ : Finmap fun _ : ℕ=>Entry Unit Unit Unit).insert 1 ⟨terrain true,.heavy,.waiting⟩
      unfinished := 1 },fun _=>False,none⟩ : Ledger Unit Unit Unit) :=
    Reachable.new.step (.admitEntry 1 (terrain true) 0 rfl)
  have hsecond : Reachable 0 1 (⟨behindTerrain .waiting ⟨{ positional := true },.light,.waiting⟩
      1 1,fun _=>False,none⟩ : Ledger Unit Unit Unit) :=
    hfirst.step (.admitEntry 2 { positional := true } 0 rfl)
  exact hsecond.step (.insertReady 2 .commitOnly rfl)

lemma reachable_normalized : Reachable 0 1 (⟨behindTerrain (.ready (.subChunks 0 [()] 0))
      ⟨terrain false,.heavy,.ready (.subChunks 0 [()] 0)⟩ 0 2,fun _=>False,none⟩ :
        Ledger Unit Unit Unit) := by
  have hadmit : Reachable 0 1 (⟨behindTerrain (.ready (.subChunks 0 [()] 0))
      ⟨terrain true,.heavy,.waiting⟩ 0 2,fun _=>False,none⟩ : Ledger Unit Unit Unit) :=
    (reachable_terrain (.subChunks 0 [()] 0)).step (.admitEntry 2 (terrain true) 0 rfl)
  have hready : Reachable 0 1 (⟨behindTerrain (.ready (.subChunks 0 [()] 0))
      ⟨terrain true,.heavy,.ready (.subChunks 0 [()] 0)⟩ 0 2,fun _=>False,none⟩ :
        Ledger Unit Unit Unit) := hadmit.step (.insertReady 2 (.subChunks 0 [()] 0) rfl)
  exact hready.step (.normalize 2)

/-- Whether a pass returns a step, and what it leaves once that is finished. -/
def passOf (budget : CommitBudget) (s : OrderedCommitState S V O) :
    Option (Bool × OrderedCommitState S V O) :=
  (s.nextCommitWithin budget).map fun out=>(out.1.isSome,out.2.finishStep)

lemma scan_two {s : OrderedCommitState S V O} {one two : Entry S V O} (hfrontier : s.frontier=1)
    (hone : s.entries.lookup 1=some one) (htwo : s.entries.lookup 2=some two)
    (hnone : ∀ m, m≠1 → m≠2 → s.entries.lookup m=none) : s.scan = [(1,one),(2,two)] := by
  have hkeys : s.entries.keys.filter (s.frontier ≤ ·) = {1, 2} := by
    ext m
    rw [mem_filter,Finmap.mem_keys,← Finmap.lookup_isSome,mem_insert, mem_singleton,hfrontier]
    constructor
    · rintro ⟨hsome,-⟩
      by_contra hno
      rw [hnone m (fun h=>hno (.inl h)) fun h=>hno (.inr h)] at hsome
      cases hsome
    · rintro (rfl | rfl)
      · exact ⟨Option.isSome_of_eq_some hone,by decide⟩
      · exact ⟨Option.isSome_of_eq_some htwo,by decide⟩
  have hsort : ({1, 2} : Finset ℕ).sort (· ≤ ·) = [1,2] := by
    rw [sort_insert (· ≤ ·) (by simp) (by simp),sort_singleton]
  unfold scan
  rw [hkeys,hsort]
  simp [hone,htwo]

lemma scan_behindTerrain (second : Entry Unit Unit Unit)
    (light heavy : ℕ) : (behindTerrain slot second light heavy).scan =
      [(1,⟨terrain true,.heavy,slot⟩),(2,second)] := by
  refine scan_two rfl ?_ (Finmap.lookup_insert _) fun m h1 h2=>?_
  · change (Finmap.insert 2 _ _).lookup 1=_
    rw [Finmap.lookup_insert_of_ne _ (by decide),Finmap.lookup_insert]
  · change (Finmap.insert 2 _ _).lookup m=_
    rw [Finmap.lookup_insert_of_ne _ h2,Finmap.lookup_insert_of_ne _ h1,Finmap.lookup_empty]

variable (items : List Unit)

/-- The first batch installed. -/
def started (second : Entry Unit Unit Unit) (light heavy : ℕ)
    (earlier : EarlierEvents) : OrderedCommitState Unit Unit Unit :=
  { (behindTerrain (.ready (.subChunks 0 items 0)) second light heavy).activate 1
      ⟨terrain true,.heavy,.ready (.subChunks 0 items 0)⟩ with
    earlier := earlier
    pendingSubChunks := some ⟨1,0,items,0⟩ }

lemma lookup_started (second : Entry Unit Unit Unit) (light heavy : ℕ) (earlier : EarlierEvents) :
    (started items second light heavy earlier).entries.lookup 2=some second := by
  change (Finmap.insert 1 _ (Finmap.insert 2 _ _)).lookup 2=_
  rw [Finmap.lookup_insert_of_ne _ (by decide),Finmap.lookup_insert]

lemma scan_started (second : Entry Unit Unit Unit) (light heavy : ℕ)
    (earlier : EarlierEvents) : (started items second light heavy earlier).scan =
      [(1,⟨terrain true,.heavy,.active⟩),(2,second)] := by
  refine scan_two rfl (Finmap.lookup_insert _) (lookup_started items second light heavy earlier) fun m h1 h2=>?_
  change (Finmap.insert 1 _ (Finmap.insert 2 _ _)).lookup m=_
  rw [Finmap.lookup_insert_of_ne _ h1,Finmap.lookup_insert_of_ne _ h2,
    Finmap.lookup_insert_of_ne _ h1,Finmap.lookup_empty]

lemma passOf_start {items : List Unit} {light heavy : ℕ}
    (hfound : ((behindTerrain (.ready (.subChunks 0 items 0)) second light heavy).findUnblocked
      ⟨true,false,true⟩).1=some 1) : ∃ noted, passOf ⟨true,false,true⟩
        (behindTerrain (.ready (.subChunks 0 items 0)) second light heavy) =
          some (true,started items second light heavy noted) := by
  refine ⟨((behindTerrain (.ready (.subChunks 0 items 0)) second light heavy).findUnblocked ⟨true,false,true⟩).2,?_⟩
  unfold passOf
  rw [nextCommitWithin_eq rfl rfl,hfound]
  rfl

/-- A pass that keeps local movement apart from terrain commits what the unlimited allowance does
not; a batch that is no chunk data itself is not waited for; and an empty batch takes two steps. -/
theorem skipping_misses : (∃ l : Ledger Unit Unit Unit, Reachable 0 1 l ∧ l.order.applying=none ∧
      (∃ n entry event, l.order.Releasable false n entry event) ∧
      (l.order.nextCommitWithin ⟨true,false,false⟩).map (fun out => out.1.isSome) = some true ∧
      (l.order.nextCommitWithin ⟨true,true,true⟩).map (fun out => out.1.isSome) = some false) ∧
    (∃ l : Ledger Unit Unit Unit, Reachable 0 1 l ∧ l.order.applying=none ∧
      (∃ entry event, l.order.Releasable true 2 entry event) ∧
      ∃ s s', passOf ⟨true,false,true⟩ l.order = some (true,s) ∧
        passOf ⟨true,false,true⟩ s=some (false,s') ∧ ¬s'.Popped 2) ∧
    ∃ l : Ledger Unit Unit Unit, Reachable 0 1 l ∧ l.order.applying=none ∧
      (∃ entry event, l.order.Releasable true 2 entry event) ∧
      (∃ entry dimension duration, l.order.entries.lookup 1=some entry ∧
        entry.slot = .ready (.subChunks dimension [] duration)) ∧
      ∃ s s', passOf ⟨true,false,true⟩ l.order = some (true,s) ∧
        passOf ⟨true,false,true⟩ s=some (true,s') ∧ ¬s'.Popped 2 := by
  refine ⟨⟨_,reachable_positional,rfl,⟨2,_,_,releasable_second rfl (by decide)
    fun hconflicts => absurd hconflicts (by decide)⟩,?_,?_⟩,⟨_,reachable_normalized,rfl,
    ⟨_,_,releasable_second rfl (by decide) fun _=>⟨_,rfl⟩⟩,?_⟩,
    ⟨_,reachable_light (.subChunks 0 [] 0) .commitOnly,rfl, ⟨_,_,releasable_second rfl (by decide) fun _=>⟨_,rfl⟩⟩,
      ⟨⟨terrain true,.heavy,.ready (.subChunks 0 [] 0)⟩,0,0,?_,rfl⟩,?_⟩⟩
  · rw [nextCommitWithin_eq rfl rfl]
    have hfound : ((behindTerrain .waiting ⟨{ positional := true },.light,.ready .commitOnly⟩
        1 1).findUnblocked ⟨true,false,false⟩).1=some 2 := by
      unfold findUnblocked
      rw [scan_behindTerrain]
      decide +kernel
    rw [hfound]
    rfl
  · rw [nextCommitWithin_eq rfl rfl]
    have hfound : ((behindTerrain .waiting ⟨{ positional := true },.light,.ready .commitOnly⟩
        1 1).findUnblocked ⟨true,true,true⟩).1=none := by
      unfold findUnblocked
      rw [scan_behindTerrain]
      decide +kernel
    rw [hfound]
    rfl
  · have hfound : ((behindTerrain (.ready (.subChunks 0 [()] 0))
        ⟨terrain false,.heavy,.ready (.subChunks 0 [()] 0)⟩ 0 2).findUnblocked
          ⟨true,false,true⟩).1=some 1 := by
      unfold findUnblocked
      rw [scan_behindTerrain]
      decide +kernel
    have hafter : ∀ noted, ((started [()] ⟨terrain false,.heavy,.ready (.subChunks 0 [()] 0)⟩ 0 2
        noted).findUnblocked ⟨true,false,true⟩).1=none := by
      intro noted
      unfold findUnblocked
      rw [scan_started]
      rfl
    obtain ⟨noted,hstart⟩ := passOf_start hfound
    refine ⟨_,started [()] ⟨terrain false,.heavy,.ready (.subChunks 0 [()] 0)⟩ 0 2
      ((started [()] ⟨terrain false,.heavy,.ready (.subChunks 0 [()] 0)⟩ 0 2 noted).findUnblocked
        ⟨true,false,true⟩).2,hstart,?_,?_⟩
    · unfold passOf
      rw [nextCommitWithin_eq rfl rfl,hafter]
      rfl
    · exact fun hpopped => hpopped ⟨terrain false,.heavy,.ready (.subChunks 0 [()] 0)⟩ _ (lookup_started _ _ _ _ _) rfl
  · change (Finmap.insert 2 _ _).lookup 1=_
    rw [Finmap.lookup_insert_of_ne _ (by decide),Finmap.lookup_insert]
  · have hfound : ((behindTerrain (.ready (.subChunks 0 [] 0))
        ⟨terrain false,.light,.ready .commitOnly⟩ 1 1).findUnblocked
          ⟨true,false,true⟩).1=some 1 := by
      unfold findUnblocked
      rw [scan_behindTerrain]
      decide +kernel
    have hafter : ∀ noted, ((started [] ⟨terrain false,.light,.ready .commitOnly⟩ 1 1
        noted).findUnblocked ⟨true,false,true⟩).1=some 1 := by
      intro noted
      unfold findUnblocked
      rw [scan_started]
      rfl
    obtain ⟨noted,hstart⟩ := passOf_start hfound
    refine ⟨_,({ started [] ⟨terrain false,.light,.ready .commitOnly⟩ 1 1
      ((started [] ⟨terrain false,.light,.ready .commitOnly⟩ 1 1 noted).findUnblocked
        ⟨true,false,true⟩).2 with lastStepHeavy := false }.continueSubChunks ⟨1,0,[],0⟩).2.finishStep,hstart,?_,?_⟩
    · unfold passOf
      rw [nextCommitWithin_eq rfl rfl,hafter]
      rfl
    · exact fun hpopped => hpopped _ _ rfl rfl

end Ledger

end Cinnabar.Ingest
