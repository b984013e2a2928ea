import Cinnabar.Culling.Face
import Cinnabar.Library.Worklist

/-! # The reference traversal -/

namespace Cinnabar.Culling

open List

abbrev Connectivity := Finmap fun _ : SectionKey=>FaceConnectivity

structure OracleScratch where
  /-- The faces each visited key was entered by. -/
  visited : Finmap fun _ : SectionKey=>Finset Face
  queue : List (SectionKey × Option Face)

namespace OracleScratch

def pop (s : OracleScratch) : Option ((SectionKey × Option Face) × OracleScratch) :=
  match s.queue with
  | [] => none
  | item::rest => some (item,{ s with queue := rest })

def entered (s : OracleScratch) (key : SectionKey) : Finset Face := (s.visited.lookup key).getD ∅

end OracleScratch

section

variable (outwardOnly : Bool)

section

variable (camera : SectionKey)

/-- Whether a node entered so may be left by an exit. -/
def canExit (value : FaceConnectivity)
    (item : SectionKey × Option Face) (exit : Face) : Bool :=
  match item.2 with
  | none => (exit,exit) ∈ value.connected
  | some entry => (entry,exit) ∈ value.connected && exit ∈ ruleExits outwardOnly camera item.1

section

variable (map : Connectivity)

def oracleExit
    (value : FaceConnectivity) (item : SectionKey × Option Face) (s : OracleScratch)
    (exit : Face) : OracleScratch :=
  if canExit outwardOnly camera value item exit then
    match adjacent item.1 exit with
    | none => s
    | some next =>
      if (map.lookup next).isNone then s
      else if exit.opposite ∈ s.entered next then
        { s with visited := s.visited.insert next (s.entered next) }
      else
        { visited := s.visited.insert next (insert exit.opposite (s.entered next))
          queue := s.queue ++ [(next,some exit.opposite)] }
  else s

def oracleVisit
    (item : SectionKey × Option Face) (s : OracleScratch) : OracleScratch :=
  match map.lookup item.1 with
  | none => s
  | some value => Face.all.foldl (oracleExit outwardOnly camera map value item) s

def oracleVisited :
    Finset SectionKey :=
  (exhaust OracleScratch.pop (oracleVisit outwardOnly camera map) (1+6*map.keys.card)
    ⟨Finmap.singleton camera ∅,[(camera,none)]⟩).visited.keys

/-- `oracle_fill` -/
def oracle : Finset SectionKey :=
  if (map.lookup camera).isNone then map.keys
  else
    let visited := oracleVisited outwardOnly camera map
    if outwardOnly then visited
    else visited ∪ map.keys.filter fun key=>∃ face, ∃ node ∈ visited, adjacent node face=some key

end

end

end

variable {outwardOnly : Bool} {camera : SectionKey} {map : Connectivity} {s : OracleScratch}

def EnteredBy (R : Fact → Prop) (key : SectionKey) (face : Face) : Prop :=
  ∃ previous exit, adjacent previous exit=some key ∧ face=exit.opposite ∧ R (.exit previous exit)

def Source (camera : SectionKey) (s : OracleScratch) (item : SectionKey × Option Face) : Prop :=
  (item = (camera,none)) ∨ ∃ face, item.2=some face ∧ face ∈ s.entered item.1

/-- What every step of the traversal keeps. -/
structure Searching (outwardOnly : Bool) (camera : SectionKey) (map : Connectivity)
    (R : Fact → Prop) (owed : SectionKey × Option Face → Face → Prop) (s : OracleScratch) :
    Prop where
  sound : ∀ {key faces}, s.visited.lookup key=some faces → R (.reached key) ∧ ∀ face ∈ faces, EnteredBy R key face
  start : (s.visited.lookup camera).isSome
  queue : ∀ item ∈ s.queue, Source camera s item
  complete : ∀ {item value exit next}, Source camera s item → map.lookup item.1=some value →
    canExit outwardOnly camera value item exit=true → adjacent item.1 exit=some next →
    (map.lookup next).isSome → owed item exit ∨ item ∈ s.queue ∨ exit.opposite ∈ s.entered next

lemma OracleScratch.entered_insert (s : OracleScratch) (key other : SectionKey)
    (faces : Finset Face) (queue : List (SectionKey × Option Face)) :
    (OracleScratch.mk (s.visited.insert key faces) queue).entered other =
      if other=key then faces else s.entered other := by
  unfold OracleScratch.entered
  by_cases hk : other=key
  · rw [if_pos hk,hk,Finmap.lookup_insert]
    rfl
  · rw [if_neg hk,Finmap.lookup_insert_of_ne _ hk]

variable {owed : SectionKey × Option Face → Face → Prop} {value : FaceConnectivity}

/-- What a rule lets a node be left by follows from the camera. -/
lemma Searching.exit (h : Searching outwardOnly camera map
      (Reaches map.lookup (ruleExits outwardOnly camera) camera) owed s)
    {item : SectionKey × Option Face} {exit : Face}
    (hitem : Source camera s item) (hget : map.lookup item.1=some value)
    (hexit : canExit outwardOnly camera value item exit=true) :
    Reaches map.lookup (ruleExits outwardOnly camera) camera (.exit item.1 exit) := by
  rcases hitem with rfl | ⟨face,hface,hin⟩
  · refine Closure.of_seed (.exit hget ?_)
    rw [FaceConnectivity.mem_touchedFaces]
    exact of_decide_eq_true hexit
  · unfold canExit at hexit
    rw [hface] at hexit
    simp only [Bool.and_eq_true,decide_eq_true_eq] at hexit
    unfold OracleScratch.entered at hin
    cases hlook : s.visited.lookup item.1 with
    | none =>
      rw [hlook] at hin
      simp at hin
    | some faces =>
      rw [hlook] at hin
      obtain ⟨previous,exit',hadj,rfl,hR⟩ := (h.sound hlook).2 face hin
      exact hR.tail (.exit hadj hget (FaceConnectivity.mem_row.2 hexit.1) hexit.2)

lemma Searching.enter {R : Fact → Prop} (h : Searching outwardOnly camera map R owed s) {next : SectionKey}
    {faces : Finset Face}
    (more : List (SectionKey × Option Face)) (hreached : R (.reached next)) (hsub : s.entered next ⊆ faces)
    (hby : ∀ face ∈ faces, EnteredBy R next face)
    (hmore : ∀ item, item ∈ more ↔ ∃ face, item = (next,some face) ∧ face ∈ faces ∧ face ∉ s.entered next) :
    Searching outwardOnly camera map R owed ⟨s.visited.insert next faces,s.queue++more⟩ ∧ ∀ item, Source camera s item →
        Source camera ⟨s.visited.insert next faces,s.queue++more⟩ item := by
  have hgrows : ∀ key, s.entered key ⊆
      (OracleScratch.mk (s.visited.insert next faces) (s.queue++more)).entered key := by
    intro key
    rw [s.entered_insert]
    split_ifs with hk
    · rw [hk]
      exact hsub
    · exact Finset.Subset.refl _
  have hsource : ∀ item, Source camera s item → Source camera ⟨s.visited.insert next faces,s.queue++more⟩ item := by
    rintro item (hitem | ⟨face,hface,hin⟩)
    · exact .inl hitem
    · exact .inr ⟨face,hface,hgrows item.1 hin⟩
  refine ⟨⟨fun {key fs} hlook=>?_,?_,fun item hitem=>?_,
    fun {item value exit other} hitem hvalue hcan hadj hother=>?_⟩,hsource⟩
  · by_cases hk : key=next
    · subst hk
      rw [Finmap.lookup_insert] at hlook
      cases hlook
      exact ⟨hreached,hby⟩
    · rw [Finmap.lookup_insert_of_ne _ hk] at hlook
      exact h.sound hlook
  · by_cases hk : camera=next
    · rw [hk,Finmap.lookup_insert]
      rfl
    · rw [Finmap.lookup_insert_of_ne _ hk]
      exact h.start
  · rcases mem_append.1 hitem with hitem | hitem
    · exact hsource item (h.queue item hitem)
    · obtain ⟨face,rfl,hin,-⟩ := (hmore item).1 hitem
      refine .inr ⟨face,rfl,?_⟩
      rw [s.entered_insert,if_pos rfl]
      exact hin
  · by_cases hold : Source camera s item
    · rcases h.complete hold hvalue hcan hadj hother with ho | hqueue | hentered
      · exact .inl ho
      · exact .inr (.inl (mem_append_left _ hqueue))
      · exact .inr (.inr (hgrows other hentered))
    · refine .inr (.inl (mem_append_right _ ?_))
      obtain ⟨key,from'⟩ := item
      rcases hitem with hitem | ⟨face,hface,hin⟩
      · exact absurd (.inl hitem) hold
      · subst hface
        rw [s.entered_insert] at hin
        split_ifs at hin with hk
        · subst hk
          exact (hmore _).2 ⟨face,rfl,hin,fun hwas=>hold (.inr ⟨face,rfl,hwas⟩)⟩
        · exact absurd (.inr ⟨face,rfl,hin⟩) hold

lemma Searching.weaken {owed owed' : SectionKey × Option Face → Face → Prop} {R : Fact → Prop}
    (h : Searching outwardOnly camera map R owed s)
    (howed : ∀ {item value exit next}, owed item exit → map.lookup item.1=some value →
      canExit outwardOnly camera value item exit=true → adjacent item.1 exit=some next →
      (map.lookup next).isSome → owed' item exit ∨ exit.opposite ∈ s.entered next) :
    Searching outwardOnly camera map R owed' s := by
  refine ⟨h.sound,h.start,h.queue,fun {item v e next} hsource hv hcan hadj hin=>?_⟩
  rcases h.complete hsource hv hcan hadj hin with ho | hqueue | hentered
  · exact (howed ho hv hcan hadj hin).imp id .inr
  · exact .inr (.inl hqueue)
  · exact .inr (.inr hentered)

def searchesLeft (map : Connectivity) (s : OracleScratch) : ℕ :=
  s.queue.length + ∑ key ∈ map.keys, (6 - (s.entered key).card)

lemma Searching.leave (h : Searching outwardOnly camera map
      (Reaches map.lookup (ruleExits outwardOnly camera) camera) owed s)
    (owed' : SectionKey × Option Face → Face → Prop)
    {item : SectionKey × Option Face} {exit : Face}
    (hitem : Source camera s item) (hget : map.lookup item.1=some value)
    (howed : ∀ {other e}, owed other e → owed' other e ∨ (other=item ∧ e=exit)) :
    Searching outwardOnly camera map (Reaches map.lookup (ruleExits outwardOnly camera) camera)
        owed' (oracleExit outwardOnly camera map value item s exit) ∧
      Source camera (oracleExit outwardOnly camera map value item s exit) item ∧
      searchesLeft map (oracleExit outwardOnly camera map value item s exit) ≤
        searchesLeft map s := by
  -- nothing is owed for this exit once its neighbour has the entry, or there is none
  have hdone : ∀ {t : OracleScratch}, Searching outwardOnly camera map
      (Reaches map.lookup (ruleExits outwardOnly camera) camera) owed t →
      (∀ next, canExit outwardOnly camera value item exit=true →
        adjacent item.1 exit=some next → (map.lookup next).isSome → exit.opposite ∈ t.entered next) →
      Searching outwardOnly camera map (Reaches map.lookup (ruleExits outwardOnly camera) camera)
        owed' t := by
    intro t ht hserved
    refine ht.weaken fun {other v e next} ho hv hcan hadj hin=>?_
    rcases howed ho with ho' | ⟨rfl,rfl⟩
    · exact .inl ho'
    · rw [hget] at hv
      cases hv
      exact .inr (hserved next hcan hadj hin)
  unfold oracleExit
  by_cases hcan : canExit outwardOnly camera value item exit=true
  · rw [if_pos hcan]
    have hR := h.exit hitem hget hcan
    cases hadj : adjacent item.1 exit with
    | none =>
      refine ⟨hdone h fun next _ hnext=>?_,hitem,le_refl _⟩
      rw [hadj] at hnext
      cases hnext
    | some next =>
      dsimp only
      by_cases hnone : (map.lookup next).isNone=true
      · rw [if_pos hnone]
        refine ⟨hdone h fun other _ hother hin=>?_,hitem,le_refl _⟩
        rw [hadj] at hother
        cases hother
        rw [Option.isNone_iff_eq_none] at hnone
        rw [hnone] at hin
        cases hin
      · rw [if_neg hnone]
        obtain ⟨nextValue,hnext⟩ : ∃ v, map.lookup next=some v := by
          rw [Option.isNone_iff_eq_none] at hnone
          exact Option.ne_none_iff_exists'.1 hnone
        have hreached := hR.tail (.reached hadj hnext)
        have hbefore : ∀ face ∈ s.entered next,
            EnteredBy (Reaches map.lookup (ruleExits outwardOnly camera) camera) next face := by
          intro face hin
          unfold OracleScratch.entered at hin
          cases hlook : s.visited.lookup next with
          | none =>
            rw [hlook] at hin
            simp at hin
          | some faces =>
            rw [hlook] at hin
            exact (h.sound hlook).2 face hin
        by_cases hin : exit.opposite ∈ s.entered next
        · rw [if_pos hin]
          obtain ⟨hsame,hsource⟩ := h.enter [] hreached (Finset.Subset.refl _) hbefore fun other=>by simp
          rw [append_nil] at hsame hsource
          refine ⟨hdone hsame fun other _ hother _=>?_,hsource item hitem,?_⟩
          · rw [hadj] at hother
            cases hother
            rw [s.entered_insert,if_pos rfl]
            exact hin
          · refine Nat.add_le_add_left (Finset.sum_le_sum fun key _=>?_) _
            rw [s.entered_insert]
            split_ifs with hk
            · rw [hk]
            · exact le_refl _
        · rw [if_neg hin]
          obtain ⟨hsame,hsource⟩ := h.enter [(next,some exit.opposite)] hreached (Finset.subset_insert _ _)
            (fun face hface=>by
              rcases Finset.mem_insert.1 hface with rfl | hface
              · exact ⟨item.1,exit,hadj,rfl,hR⟩
              · exact hbefore face hface)
            fun other=>by
              rw [mem_singleton]
              constructor
              · rintro rfl
                exact ⟨exit.opposite,rfl,Finset.mem_insert_self _ _,hin⟩
              · rintro ⟨face,rfl,hface,hnew⟩
                rcases Finset.mem_insert.1 hface with rfl | hold
                · rfl
                · exact absurd hold hnew
          refine ⟨hdone hsame fun other _ hother _=>?_,hsource item hitem,?_⟩
          · rw [hadj] at hother
            cases hother
            rw [s.entered_insert,if_pos rfl]
            exact Finset.mem_insert_self _ _
          · have hpay : ∑ key ∈ map.keys, (6 - ((OracleScratch.mk (s.visited.insert next
                (insert exit.opposite (s.entered next)))
                (s.queue ++ [(next,some exit.opposite)])).entered key).card)+1 ≤
                ∑ key ∈ map.keys, (6 - (s.entered key).card) := by
              refine potential_le (Finmap.mem_keys.2 (Finmap.mem_of_lookup_eq_some hnext)) (fun key _ hk=>?_) ?_
              · rw [s.entered_insert,if_neg hk]
              · rw [s.entered_insert,if_pos rfl,Finset.card_insert_of_notMem hin]
                have hsix : (insert exit.opposite (s.entered next)).card≤6 := Finset.card_le_univ _
                rw [Finset.card_insert_of_notMem hin] at hsix
                omega
            unfold searchesLeft
            rw [length_append,length_singleton]
            omega
  · rw [if_neg hcan]
    exact ⟨hdone h fun next hcan'=>absurd hcan' hcan,hitem,le_refl _⟩

lemma Searching.leaveAll {item : SectionKey × Option Face} (exits : List Face)
    (h : Searching outwardOnly camera map (Reaches map.lookup (ruleExits outwardOnly camera) camera)
      (fun other e=>owed other e ∨ (other=item ∧ e ∈ exits)) s)
    (hitem : Source camera s item) (hget : map.lookup item.1=some value) :
    Searching outwardOnly camera map (Reaches map.lookup (ruleExits outwardOnly camera) camera)
        owed (exits.foldl (oracleExit outwardOnly camera map value item) s) ∧
      searchesLeft map (exits.foldl (oracleExit outwardOnly camera map value item) s) ≤
        searchesLeft map s := by
  induction exits generalizing s with
  | nil => exact ⟨h.weaken fun ho _ _ _ _=>.inl (by simpa using ho),le_refl _⟩
  | cons exit rest ih =>
    obtain ⟨hleft,hsource,hle⟩ := h.leave (fun other e=>owed other e ∨ (other=item ∧ e ∈ rest)) hitem hget
      fun {other e} ho=>by
        rw [mem_cons] at ho
        tauto
    obtain ⟨hdone,hle'⟩ := ih hleft hsource
    exact ⟨hdone,hle'.trans hle⟩

/-- One round of the loop. -/
lemma Searching.visit (h : Searching outwardOnly camera map
      (Reaches map.lookup (ruleExits outwardOnly camera) camera) (fun _ _=>False) s)
    {item : SectionKey × Option Face} {rest : OracleScratch} (hpop : s.pop=some (item,rest)) :
    Searching outwardOnly camera map (Reaches map.lookup (ruleExits outwardOnly camera) camera)
        (fun _ _=>False) (oracleVisit outwardOnly camera map item rest) ∧
      searchesLeft map (oracleVisit outwardOnly camera map item rest) < searchesLeft map s := by
  unfold OracleScratch.pop at hpop
  cases hqueue : s.queue with
  | nil =>
    rw [hqueue] at hpop
    cases hpop
  | cons top tail =>
    rw [hqueue] at hpop
    cases hpop
    have hleft : searchesLeft map { s with queue := tail } + 1=searchesLeft map s := by
      unfold searchesLeft
      rw [hqueue,length_cons]
      exact Nat.add_right_comm _ _ _
    have hrest : Searching outwardOnly camera map (Reaches map.lookup (ruleExits outwardOnly camera) camera)
        (fun other e=>False ∨ (other=item ∧ e ∈ Face.all)) { s with queue := tail } := by
      refine ⟨h.sound,h.start,fun other hother=>h.queue other (by
        rw [hqueue]
        exact .tail _ hother),fun {other v e next} hsource hv hcan hadj hin=>?_⟩
      rcases h.complete hsource hv hcan hadj hin with ho | hq | hentered
      · exact ho.elim
      · rw [hqueue] at hq
        rcases mem_cons.1 hq with rfl | hq
        · exact .inl (.inr ⟨rfl,Face.mem_all e⟩)
        · exact .inr (.inl hq)
      · exact .inr (.inr hentered)
    have hitem : Source camera { s with queue := tail } item := h.queue item (by
      rw [hqueue]
      exact .head _)
    unfold oracleVisit
    cases hget : map.lookup item.1 with
    | none =>
      refine ⟨hrest.weaken fun ho hv _ _ _=>?_,Nat.lt_of_succ_le hleft.le⟩
      obtain ⟨rfl,-⟩ := ho.resolve_left id
      rw [hget] at hv
      cases hv
    | some value =>
      obtain ⟨hdone,hle⟩ := hrest.leaveAll Face.all hitem hget
      exact ⟨hdone,lt_of_le_of_lt hle (Nat.lt_of_succ_le hleft.le)⟩

/-- The keys visited are the ones reached. -/
lemma mem_oracleVisited (hcamera : map.lookup camera=some value)
    (key : SectionKey) : key ∈ oracleVisited outwardOnly camera map ↔
      Reaches map.lookup (ruleExits outwardOnly camera) camera (.reached key) := by
  have hstart : Searching outwardOnly camera map
      (Reaches map.lookup (ruleExits outwardOnly camera) camera) (fun _ _=>False)
      ⟨Finmap.singleton camera ∅,[(camera,none)]⟩ := by
    have hlook : ∀ other, (Finmap.singleton (β := fun _=>Finset Face) camera ∅).lookup other =
        if other=camera then some ∅ else none := by
      intro other
      split_ifs with hk
      · rw [hk]
        exact Finmap.lookup_singleton_eq
      · exact Finmap.lookup_eq_none.2 fun hin=>hk ((Finmap.mem_singleton _ _ _).1 hin)
    refine ⟨fun {other faces} hother=>?_,?_,fun item hitem=>?_,fun hsource _ _ _ _=>?_⟩
    · rw [hlook] at hother
      split_ifs at hother with hk
      cases hother
      rw [hk]
      exact ⟨Closure.of_seed (.reached hcamera),fun face hface=>by simp at hface⟩
    · rw [hlook,if_pos rfl]
      rfl
    · rw [mem_singleton] at hitem
      exact .inl hitem
    · rcases hsource with rfl | ⟨face,-,hin⟩
      · exact .inr (.inl (.head _))
      · unfold OracleScratch.entered at hin
        rw [hlook] at hin
        split_ifs at hin <;> simp at hin
  have hfuel : searchesLeft map ⟨Finmap.singleton camera ∅,[(camera,none)]⟩ ≤ 1+6*map.keys.card := by
    refine Nat.add_le_add_left ?_ 1
    calc ∑ key ∈ map.keys, (6 - ((OracleScratch.mk (Finmap.singleton camera ∅) [(camera,none)]).entered key).card)
        ≤ ∑ _key ∈ map.keys, 6 := Finset.sum_le_sum fun _ _=>Nat.sub_le _ _
      _=6*map.keys.card := by rw [Finset.sum_const,smul_eq_mul,Nat.mul_comm]
  obtain ⟨hdone,hpop⟩ := exhaust_spec (searchesLeft map) (I := Searching outwardOnly camera map
      (Reaches map.lookup (ruleExits outwardOnly camera) camera) (fun _ _=>False))
    (fun s next hs hp=>Nat.zero_lt_of_lt (@Searching.visit _ _ _ _ hs next.1 next.2 hp).2)
    (fun s item rest hs hp=>hs.visit hp) hstart hfuel
  unfold oracleVisited
  generalize exhaust OracleScratch.pop (oracleVisit outwardOnly camera map) (1+6*map.keys.card)
    ⟨Finmap.singleton camera ∅,[(camera,none)]⟩ = t at hdone hpop ⊢
  have hempty : t.queue = [] := by
    unfold OracleScratch.pop at hpop
    cases hqueue : t.queue with
    | nil => rfl
    | cons top tail =>
      rw [hqueue] at hpop
      cases hpop
  rw [Finmap.mem_keys,← Finmap.lookup_isSome]
  constructor
  · intro hin
    obtain ⟨faces,hfaces⟩ := Option.isSome_iff_exists.1 hin
    exact (hdone.sound hfaces).1
  · intro hreached
    -- the facts the finished search accounts for contain the seeds and never lead out
    let holds : Fact → Prop := fun f=>match f with
      | .reached key => (t.visited.lookup key).isSome
      | .exit key exit => ∃ item value, item.1=key ∧ Source camera t item ∧
          map.lookup key=some value ∧ canExit outwardOnly camera value item exit=true
    have hentered : ∀ {key exit}, exit ∈ t.entered key → (t.visited.lookup key).isSome := by
      intro key exit hin
      unfold OracleScratch.entered at hin
      cases hlook : t.visited.lookup key with
      | none =>
        rw [hlook] at hin
        simp at hin
      | some faces => rfl
    have hserved : ∀ {key next exit}, holds (.exit key exit) → adjacent key exit=some next →
        (map.lookup next).isSome → exit.opposite ∈ t.entered next := by
      rintro key next exit ⟨item,value,rfl,hsource,hvalue,hcan⟩ hadj hnext
      rcases hdone.complete hsource hvalue hcan hadj hnext with ho | hq | hin
      · exact ho.elim
      · rw [hempty] at hq
        cases hq
      · exact hin
    have hall : holds (.reached key) := by
      refine Closure.least ?_ ?_ hreached
      · rintro _ (hg | ⟨hg,hin⟩)
        · exact hdone.start
        · exact ⟨(camera,none),_,rfl,.inl rfl,hg, decide_eq_true (FaceConnectivity.mem_touchedFaces.1 hin)⟩
      · rintro _ _ hx (⟨hadj,hg⟩ | ⟨hadj,hg,hrow,hallow⟩)
        · exact hentered (hserved hx hadj (by rw [hg]; rfl))
        · refine ⟨(_,some _),_,rfl,.inr ⟨_,rfl,hserved hx hadj (by rw [hg]; rfl)⟩,hg,?_⟩
          unfold canExit
          rw [Bool.and_eq_true,decide_eq_true_eq,decide_eq_true_eq]
          exact ⟨FaceConnectivity.mem_row.1 hrow,hallow⟩
    exact hall

/-- The reference traversal shows what the rule says. -/
lemma mem_oracle (key : SectionKey) :
    key ∈ oracle outwardOnly camera map ↔ Shown map.lookup outwardOnly camera key := by
  unfold oracle Shown
  cases hcamera : map.lookup camera with
  | none =>
    rw [if_pos Option.isNone_none,Finmap.mem_keys,← Finmap.lookup_isSome]
    exact ⟨fun h=>⟨h,.inl hcamera⟩,And.left⟩
  | some value =>
    rw [if_neg (by simp)]
    have hmem := @mem_oracleVisited outwardOnly camera map value hcamera
    have hloaded : Reaches map.lookup (ruleExits outwardOnly camera) camera (.reached key) →
        (map.lookup key).isSome := by
      intro hreached
      obtain ⟨v,hv⟩ := hreached.mem_graph
      rw [hv]
      rfl
    cases outwardOnly with
    | true =>
      rw [if_pos rfl,hmem]
      constructor
      · exact fun hreached=>⟨hloaded hreached,.inr (.inl hreached)⟩
      · rintro ⟨-,hnone | hreached | ⟨hrule,-⟩⟩
        · exact nomatch hcamera.symm.trans hnone
        · exact hreached
        · cases hrule
    | false =>
      rw [if_neg Bool.false_ne_true,Finset.mem_union,Finset.mem_filter,Finmap.mem_keys, ← Finmap.lookup_isSome,hmem]
      constructor
      · rintro (hreached | ⟨hsome,face,node,hnode,hadj⟩)
        · exact ⟨hloaded hreached,.inr (.inl hreached)⟩
        · exact ⟨hsome,.inr (.inr ⟨rfl,node,face,hadj,(hmem node).1 hnode⟩)⟩
      · rintro ⟨hsome,hnone | hreached | ⟨-,node,face,hadj,hreached⟩⟩
        · exact nomatch hcamera.symm.trans hnone
        · exact .inl hreached
        · exact .inr ⟨hsome,face,node,(hmem node).2 hreached,hadj⟩

end Cinnabar.Culling
