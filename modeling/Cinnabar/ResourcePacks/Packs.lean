import Cinnabar.Library.Entries

/-! # Resource packs of a join -/

namespace Cinnabar.ResourcePacks

open List

/-- Archive offsets are signed machine integers. -/
def maxInt : ℕ := 9223372036854775807

/-- UUIDs as the offers write them and as the selection parses them. -/
structure UuidText (U : Type) where
  toString : U → String
  parse : String → Option U
  length_toString (id : U) : (toString id).length=36
  parse_toString (id : U) : parse (toString id) = some id

section Model

variable {U : Type}

structure Archive (U : Type) where
  uuid : U
  version : String
  size : ℤ

structure TexturePackInfo (U : Type) where
  uuid : U
  version : String
  size : ℕ
  contentKey : String
  subPackName : String

structure OfferEntry (U : Type) where
  info : TexturePackInfo U
  pack : Option (Archive U)

structure ResourcePackOfferSnapshot (U : Type) where
  texturePacks : List (OfferEntry U)
  texturePackRequired : Bool

structure StackEntry (U : Type) where
  uuid : String
  version : String
  subPackName : String
  pack : Option (Archive U)

structure ResourcePackStackSnapshot (U : Type) where
  entries : List (StackEntry U)
  packs : List (Archive U)
  required : Bool

structure SessionPack where
  uuid : String
  version : String
  subPack : String
  contentKey : String
  size : ℕ
deriving DecidableEq

inductive JoinError where
  | stackUnavailable
  /-- Not all of so many offered packs could be acquired. -/
  | requiredUnsupported (packCount : ℕ)
deriving DecidableEq

/-- The key of offers and stacks. -/
def resourcePackIdentity (id version : String) : String := id ++ "_" ++ version

variable (text : UuidText U)

def TexturePackInfo.identity (info : TexturePackInfo U) : String :=
  resourcePackIdentity (text.toString info.uuid) info.version

def packIdentity (pack : Archive U) : String :=
  resourcePackIdentity (text.toString pack.uuid) pack.version

/-- What the budget is told: an offer, which may not decode, a transfer's start, or its progress. -/
inductive BudgetEvent (U : Type) where
  | admitOffer (info : Option (List (TexturePackInfo U)))
  | started (uuid : U) (version : String) (size : ℕ)
  | progress

def admitPacks : List (TexturePackInfo U) → List String → Entries String ℕ → Entries String ℕ
  | [], _, offered => offered
  | pack::packs, seen, offered =>
    let id := pack.identity text
    if id ∈ seen then admitPacks packs seen offered
    else if maxInt<pack.size then admitPacks packs (id::seen) offered
    else admitPacks packs (id::seen) (offered.insert id pack.size)

variable (offered : Entries String ℕ)

/-- The sizes of the admitted identities: the latest declaration of each. -/
def budgetStep : BudgetEvent U → Entries String ℕ
  | .admitOffer none => Entries.empty
  | .admitOffer (some info) => admitPacks text info [] Entries.empty
  | .started uuid version size =>
    let id := resourcePackIdentity (text.toString uuid) version
    -- A transfer that cannot be represented cancels the dial instead.
    if maxInt < size then offered
    else if (offered.find id).isSome then offered.insert id size
    else offered
  | .progress => offered

def budgetRun (events : List (BudgetEvent U)) : Entries String ℕ :=
  events.foldl (budgetStep text) Entries.empty

/-- Whether an archive is outside the admitted offer or larger than its declaration. -/
def excludes (pack : Archive U) : Bool :=
  match offered.find (packIdentity text pack) with
  | none => true
  | some declared => pack.size<0 || declared<pack.size.toNat

abbrev Projection (U : Type) : Type :=
  ResourcePackOfferSnapshot U → ResourcePackStackSnapshot U → (Archive U → Bool) →
    ResourcePackOfferSnapshot U × ResourcePackStackSnapshot U

def admitted (excluded : Archive U → Bool) (stack : ResourcePackStackSnapshot U) (id : String) : Bool :=
  stack.packs.any fun pack=>!excluded pack && packIdentity text pack=id

def captureSelectedResourcePackStack (project : Projection U) (excluded : Archive U → Bool)
    (stack : Option (ResourcePackStackSnapshot U)) (offer : Option (ResourcePackOfferSnapshot U)) :
    Except JoinError (ResourcePackOfferSnapshot U × ResourcePackStackSnapshot U) :=
  match stack, offer with
  | some stack, some offer =>
    let offered := offer.texturePacks.length
    if offer.texturePackRequired && offer.texturePacks.any (·.pack.isNone) then
      .error (.requiredUnsupported offered)
    else if (offer.texturePackRequired || stack.required) && stack.entries.any fun entry =>
        let id := resourcePackIdentity entry.uuid entry.version
        offer.texturePacks.any (fun other=>other.info.identity text=id) && !admitted text excluded stack id then
      .error (.requiredUnsupported offered)
    else
      .ok (project offer stack fun pack=>admitted text excluded stack (packIdentity text pack))
  | _, _ => .error .stackUnavailable

def offerOf (offers : List (OfferEntry U)) (id : String) : Option (OfferEntry U) :=
  offers.find? fun offer=>offer.info.identity text=id

def candidate (offers : List (OfferEntry U)) (entry : StackEntry U) :
    Option (String × TexturePackInfo U × Archive U) := do
  let parsed ← text.parse entry.uuid
  let id := resourcePackIdentity (text.toString parsed) entry.version
  let offer ← offerOf text offers id
  let pack ← offer.pack
  if offer.info.subPackName≠entry.subPackName then none else some (id,offer.info,pack)

def chooseSessionPacks (builtin : String → String → Bool) (offers : List (OfferEntry U)) (required : Bool) :
    List (StackEntry U) → List String → Except JoinError (List (SessionPack × Archive U))
  | [], _ => .ok []
  | entry::entries, seen =>
    if builtin entry.uuid entry.version then chooseSessionPacks builtin offers required entries seen
    else
      match (candidate text offers entry).filter fun selected=>selected.1 ∉ seen with
      | none =>
        if required then .error (.requiredUnsupported offers.length)
        else chooseSessionPacks builtin offers required entries seen
      | some (id,info,pack) =>
        (chooseSessionPacks builtin offers required entries (id::seen)).map
          ((⟨text.toString info.uuid,info.version,entry.subPackName,info.contentKey,pack.size.toNat⟩, pack) :: ·)

def joinPacks (project : Projection U) (builtin : String → String → Bool) (excluded : Archive U → Bool)
    (stack : Option (ResourcePackStackSnapshot U)) (offer : Option (ResourcePackOfferSnapshot U)) :
    Except JoinError (List (SessionPack × Archive U)) :=
  (captureSelectedResourcePackStack text project excluded stack offer).bind fun selected =>
    chooseSessionPacks text builtin selected.1.texturePacks selected.2.required selected.2.entries []

end Model

section Negotiation

variable {U : Type} (text : UuidText U)

structure Projects (project : Projection U) : Prop where
  offer : ∀ offer stack keep, ∃ bare : OfferEntry U → Bool, (project offer stack keep).1.texturePacks =
    offer.texturePacks.filter fun entry=>entry.pack.elim (bare entry) keep
  stack : ∀ offer stack keep, ∃ bare : StackEntry U → Bool, (project offer stack keep).2.entries =
    stack.entries.filter fun entry=>entry.pack.elim (bare entry) keep
  required : ∀ offer stack keep, (project offer stack keep).2.required=stack.required

structure Negotiated (acquired : U → String → Option (Archive U)) (offer : ResourcePackOfferSnapshot U)
    (stack : ResourcePackStackSnapshot U) : Prop where
  manifest : ∀ {uuid version pack}, acquired uuid version=some pack → pack.uuid=uuid ∧ pack.version=version
  offered : ∀ entry ∈ offer.texturePacks, entry.pack=acquired entry.info.uuid entry.info.version
  spelled : ∀ entry ∈ stack.entries, ∀ uuid, entry.uuid=text.toString uuid → entry.pack=acquired uuid entry.version
  stacked : ∀ entry ∈ stack.entries, ∀ pack, entry.pack=some pack → pack ∈ stack.packs ∧
    text.parse entry.uuid=some pack.uuid ∧ pack.version=entry.version
  packs : ∀ pack ∈ stack.packs, acquired pack.uuid pack.version=some pack

end Negotiation

section Joins

variable {U : Type} {text : UuidText U} {acquired : U → String → Option (Archive U)}
  {offer : ResourcePackOfferSnapshot U} {stack : ResourcePackStackSnapshot U}
  {project : Projection U} {builtin : String → String → Bool} {excluded : Archive U → Bool}
  {required : Bool} {entries : List (StackEntry U)} {offers : List (OfferEntry U)}
  {seen : List String} {handed : List (SessionPack × Archive U)}

lemma identity_inj {uuid uuid' : U} {version version' : String} (h : resourcePackIdentity (text.toString uuid) version =
      resourcePackIdentity (text.toString uuid') version') : uuid=uuid' ∧ version=version' := by
  unfold resourcePackIdentity at h
  have hlist := congrArg String.toList h
  simp only [String.toList_append,append_assoc] at hlist
  have hlen (id : U) : (text.toString id).toList.length=36 := by
    exact text.length_toString id
  obtain ⟨huuid,hrest⟩ := append_inj hlist ((hlen uuid).trans (hlen uuid').symm)
  have hparse := text.parse_toString uuid
  rw [String.toList_inj.1 huuid,text.parse_toString] at hparse
  exact ⟨(Option.some.inj hparse).symm,String.toList_inj.1 (append_cancel_left hrest)⟩

structure Hands (text : UuidText U) (builtin : String → String → Bool) (offers : List (OfferEntry U))
    (entry : StackEntry U) (pack : SessionPack × Archive U) : Prop where
  listed : builtin entry.uuid entry.version=false
  selected : ∃ info archive, candidate text offers entry =
      some (resourcePackIdentity pack.1.uuid pack.1.version,info,archive) ∧
    pack = (⟨text.toString info.uuid,info.version,entry.subPackName,info.contentKey, archive.size.toNat⟩,archive)

def handedIdentity (pack : SessionPack × Archive U) : String :=
  resourcePackIdentity pack.1.uuid pack.1.version

variable {id : String}

lemma candidate_spec {entry : StackEntry U} {info : TexturePackInfo U} {pack : Archive U}
    (h : candidate text offers entry=some (id,info,pack)) :
    ∃ uuid found, text.parse entry.uuid=some uuid ∧ id=resourcePackIdentity (text.toString uuid) entry.version ∧
      offerOf text offers id=some found ∧ found.info=info ∧ found.pack=some pack ∧
      info.identity text=id ∧ info.subPackName=entry.subPackName := by
  obtain ⟨uuid,hparse,h⟩ := Option.bind_eq_some_iff.1 h
  obtain ⟨found,hfind,h⟩ := Option.bind_eq_some_iff.1 h
  obtain ⟨archive,hpack,h⟩ := Option.bind_eq_some_iff.1 h
  split at h
  · cases h
  · rename_i hsub
    cases h
    have hidentity := List.find?_some hfind
    exact ⟨uuid,found,hparse,rfl,hfind,rfl,hpack,by simpa using hidentity,not_not.1 hsub⟩

/-- What a selection hands over: entries of the stack in order, each identity once, and, of the
entries it may not skip, all. -/
lemma choose_spec (h : chooseSessionPacks text builtin offers required entries seen = .ok handed) :
    (∃ chosen, chosen.Sublist entries ∧ List.Forall₂ (Hands text builtin offers) chosen handed) ∧
      (handed.map handedIdentity).Nodup ∧ (∀ id ∈ seen, id ∉ handed.map handedIdentity) ∧
      ∀ entry ∈ entries, builtin entry.uuid entry.version=false →
        (required=true ∨ (candidate text offers entry).isSome=true) →
          ∃ selected, candidate text offers entry=some selected ∧
            (selected.1 ∈ seen ∨ selected.1 ∈ handed.map handedIdentity) := by
  induction entries generalizing seen handed with
  | nil =>
    cases h
    exact ⟨⟨[],.slnil,.nil⟩,.nil,fun _ _=>not_mem_nil,fun _ h=>by cases h⟩
  | cons first entries ih =>
    unfold chooseSessionPacks at h
    split at h
    · rename_i hbuiltin
      obtain ⟨⟨chosen,hsub,hall⟩,hnodup,hseen,hkept⟩ := ih h
      refine ⟨⟨chosen,hsub.cons _,hall⟩,hnodup,hseen,fun entry hmem hlisted hneeded=>?_⟩
      rcases mem_cons.1 hmem with rfl | hmem
      · rw [hbuiltin] at hlisted
        cases hlisted
      · exact hkept entry hmem hlisted hneeded
    rename_i hlisted
    split at h
    · rename_i hnone
      split at h
      · cases h
      rename_i hoptional
      obtain ⟨⟨chosen,hsub,hall⟩,hnodup,hseen,hkept⟩ := ih h
      refine ⟨⟨chosen,hsub.cons _,hall⟩,hnodup,hseen,fun entry hmem hlisted hneeded=>?_⟩
      rcases mem_cons.1 hmem with rfl | hmem
      · obtain ⟨selected,hsome⟩ := Option.isSome_iff_exists.1 (hneeded.resolve_left hoptional)
        rw [hsome,Option.filter_eq_none_iff] at hnone
        exact ⟨selected,hsome,.inl (by simpa using hnone selected rfl)⟩
      · exact hkept entry hmem hlisted hneeded
    · rename_i id info pack hfilter
      obtain ⟨hcandidate,hnew⟩ := Option.filter_eq_some_iff.1 hfilter
      cases hrest : chooseSessionPacks text builtin offers required entries (id::seen) with
      | error refused =>
        rw [hrest] at h
        cases h
      | ok rest =>
      rw [hrest] at h
      cases h
      obtain ⟨⟨chosen,hsub,hall⟩,hnodup,hseen,hkept⟩ := ih hrest
      obtain ⟨_,_,-,-,-,-,-,hidentity,-⟩ := candidate_spec hcandidate
      have hid : info.identity text=id := hidentity
      subst hid
      refine ⟨⟨first::chosen,hsub.cons_cons _,.cons ⟨by simpa using hlisted,info,pack,hcandidate,rfl⟩ hall⟩,
        nodup_cons.2 ⟨hseen _ (.head _),hnodup⟩,fun id hid hmem=>?_,
        fun entry hmem hlisted hneeded=>?_⟩
      · rcases mem_cons.1 hmem with rfl | hmem
        · have hnew : info.identity text ∉ seen := by simpa using hnew
          exact absurd hid hnew
        · exact hseen id (.tail _ hid) hmem
      · rcases mem_cons.1 hmem with rfl | hmem
        · exact ⟨_,hcandidate,.inr (.head _)⟩
        · obtain ⟨selected,hsome,hwhere⟩ := hkept entry hmem hlisted hneeded
          refine ⟨selected,hsome,?_⟩
          rcases hwhere with hwhere | hwhere
          · rcases mem_cons.1 hwhere with heq | hwhere
            · exact .inr (mem_cons.2 (.inl heq))
            · exact .inl hwhere
          · exact .inr (.tail _ hwhere)

lemma admitted_iff : admitted text excluded stack id=true ↔
    ∃ pack ∈ stack.packs, excluded pack=false ∧ packIdentity text pack=id := by
  simp [admitted]

namespace Negotiated

variable (h : Negotiated text acquired offer stack)

include h

omit h in
lemma unique {pack other : Archive U} (hpack : acquired pack.uuid pack.version=some pack)
    (hother : acquired other.uuid other.version=some other)
    (hsame : packIdentity text pack=packIdentity text other) : pack=other := by
  obtain ⟨huuid,hversion⟩ := identity_inj hsame
  rw [huuid,hversion,hother] at hpack
  exact (Option.some.inj hpack).symm

variable {pack : Archive U}

lemma acquired_of_offered {entry : OfferEntry U} (hmem : entry ∈ offer.texturePacks)
    (hpack : entry.pack=some pack) : pack.uuid=entry.info.uuid ∧ pack.version=entry.info.version ∧
      acquired pack.uuid pack.version=some pack := by
  rw [h.offered entry hmem] at hpack
  obtain ⟨huuid,hversion⟩ := h.manifest hpack
  exact ⟨huuid,hversion,by rwa [huuid,hversion]⟩

lemma not_excluded (hpack : acquired pack.uuid pack.version=some pack)
    (hkeep : admitted text excluded stack (packIdentity text pack) = true) : excluded pack=false := by
  obtain ⟨other,hother,hallowed,hsame⟩ := admitted_iff.1 hkeep
  exact unique (h.packs other hother) hpack hsame ▸ hallowed

variable {bare : OfferEntry U → Bool} {keep : Archive U → Bool}

/-- The first offer of an identity whose archive is kept is the first of the projected ones. -/
lemma offerOf_filter {entry : OfferEntry U} (hmem : entry ∈ offer.texturePacks) (hpack : entry.pack=some pack)
    (hkeep : keep pack=true) :
    offerOf text (offer.texturePacks.filter fun entry=>entry.pack.elim (bare entry) keep)
      (entry.info.identity text) = offerOf text offer.texturePacks (entry.info.identity text) := by
  unfold offerOf
  rw [List.find?_filter]
  refine List.find?_congr fun other hother=>?_
  by_cases hsame : other.info.identity text=entry.info.identity text
  · obtain ⟨huuid,hversion⟩ := identity_inj hsame
    have hsome : other.pack=some pack := by
      rw [h.offered other hother,huuid,hversion,← h.offered entry hmem,hpack]
    simp [hsame,hsome,hkeep]
  · simp [hsame]

variable {entry : StackEntry U}

/-- What the projected offers select, the original ones select, and its archive is kept. -/
lemma candidate_filter {id : String} {info : TexturePackInfo U}
    (hcandidate : candidate text (offer.texturePacks.filter fun entry =>
      entry.pack.elim (bare entry) keep) entry=some (id,info,pack)) :
    candidate text offer.texturePacks entry=some (id,info,pack) ∧ keep pack=true ∧
      pack.uuid=info.uuid ∧ pack.version=info.version ∧
        acquired pack.uuid pack.version=some pack := by
  obtain ⟨uuid,found,hparse,hid,hfind,rfl,hpack,hidentity,hsub⟩ := candidate_spec hcandidate
  obtain ⟨hmem,hkeep⟩ := mem_filter.1 (List.mem_of_find?_eq_some hfind)
  rw [hpack] at hkeep
  rw [← hidentity,h.offerOf_filter hmem hpack hkeep,hidentity,hid] at hfind
  obtain ⟨huuid,hversion,hacquired⟩ := h.acquired_of_offered hmem hpack
  refine ⟨?_,hkeep,huuid,hversion,hacquired⟩
  unfold candidate
  rw [hparse,Option.bind_eq_bind,Option.bind_some]
  dsimp only
  rw [hfind,Option.bind_eq_bind,Option.bind_some,hpack,Option.bind_eq_bind,Option.bind_some,
    if_neg (not_not.2 hsub),hid]

lemma candidate_kept {uuid : U} {offered : OfferEntry U} (hparse : text.parse entry.uuid=some uuid)
    (hoffered : offerOf text offer.texturePacks (resourcePackIdentity (text.toString uuid) entry.version) =
      some offered) (hpack : offered.pack=some pack) (hkeep : keep pack=true)
    (hsub : offered.info.subPackName=entry.subPackName) :
    (candidate text (offer.texturePacks.filter fun entry=>entry.pack.elim (bare entry) keep)
      entry).isSome=true := by
  have hidentity : offered.info.identity text=resourcePackIdentity (text.toString uuid) entry.version := by
    simpa using List.find?_some hoffered
  have hfind : offerOf text (offer.texturePacks.filter fun entry=>entry.pack.elim (bare entry) keep)
      (offered.info.identity text) = _ :=
    h.offerOf_filter (List.mem_of_find?_eq_some hoffered) hpack hkeep
  rw [hidentity,hoffered] at hfind
  unfold candidate
  rw [hparse,Option.bind_eq_bind,Option.bind_some]
  dsimp only
  rw [hfind,Option.bind_eq_bind,Option.bind_some,hpack,Option.bind_eq_bind,Option.bind_some, if_neg (not_not.2 hsub)]
  rfl

end Negotiated

/-- What a successful join captured and chose. -/
lemma joinPacks_spec (hprojects : Projects project)
    (h : joinPacks text project builtin excluded (some stack) (some offer) = .ok handed) :
    ((offer.texturePackRequired=true ∨ stack.required=true) → ∀ entry ∈ stack.entries,
      (∃ other ∈ offer.texturePacks, other.info.identity text=resourcePackIdentity entry.uuid entry.version) →
      admitted text excluded stack (resourcePackIdentity entry.uuid entry.version) = true) ∧
    ∃ (bareOffer : OfferEntry U → Bool) (bareStack : StackEntry U → Bool), chooseSessionPacks text builtin
        (offer.texturePacks.filter fun entry=>entry.pack.elim (bareOffer entry)
          fun pack=>admitted text excluded stack (packIdentity text pack))
        stack.required
        (stack.entries.filter fun entry=>entry.pack.elim (bareStack entry)
          fun pack=>admitted text excluded stack (packIdentity text pack)) [] = .ok handed := by
  unfold joinPacks captureSelectedResourcePackStack at h
  dsimp only at h
  split at h
  · cases h
  split at h
  · cases h
  rename_i hretained
  refine ⟨fun hrequired entry hmem hoffered=>?_,?_⟩
  · by_contra hadmitted
    refine hretained ?_
    rw [Bool.and_eq_true,Bool.or_eq_true]
    exact ⟨hrequired,any_eq_true.2 ⟨entry,hmem,by
      simpa using ⟨hoffered,eq_false_of_ne_true hadmitted⟩⟩⟩
  · obtain ⟨bareOffer,hoffer⟩ := hprojects.offer offer stack
      fun pack=>admitted text excluded stack (packIdentity text pack)
    obtain ⟨bareStack,hstack⟩ := hprojects.stack offer stack
      fun pack=>admitted text excluded stack (packIdentity text pack)
    refine ⟨bareOffer,bareStack,?_⟩
    rw [← hoffer,← hstack]
    exact hprojects.required offer stack _ ▸ h

lemma hands_of_mem {α β : Type} {R : α → β → Prop} {chosen : List α} {handed : List β}
    (h : List.Forall₂ R chosen handed) {b : β} (hmem : b ∈ handed) : ∃ a ∈ chosen, R a b := by
  induction h with
  | nil => cases hmem
  | cons hR _ ih =>
    rcases mem_cons.1 hmem with rfl | hmem
    · exact ⟨_,.head _,hR⟩
    · obtain ⟨a,ha,hab⟩ := ih hmem
      exact ⟨a,.tail _ ha,hab⟩

/-- The size an identity may have, by the events with the latest first: that of the latest transfer
since it was admitted, or else of its first entry in the latest offer. -/
def declaredSize (text : UuidText U) (id : String) : List (BudgetEvent U) → Option ℕ
  | [] => none
  | .admitOffer info::_ => (info.bind fun packs =>
      packs.find? fun pack=>pack.identity text=id).bind fun pack =>
        if maxInt<pack.size then none else some pack.size
  | .started uuid version size::older =>
    (declaredSize text id older).map fun declared =>
      if id=resourcePackIdentity (text.toString uuid) version ∧ size ≤ maxInt then size else declared
  | .progress::older => declaredSize text id older

lemma find_admitPacks (packs : List (TexturePackInfo U)) (seenPacks : List String)
    (offered : Entries String ℕ) (id : String) : (admitPacks text packs seenPacks offered).find id =
      if id ∈ seenPacks then offered.find id
      else ((packs.find? fun pack=>pack.identity text=id).elim (offered.find id) fun pack =>
        if maxInt<pack.size then offered.find id else some pack.size) := by
  induction packs generalizing seenPacks offered with
  | nil => simp [admitPacks]
  | cons pack packs ih =>
    unfold admitPacks
    dsimp only
    by_cases hid : pack.identity text=id
    · subst hid
      split_ifs with hseen hlarge
      · rw [ih,if_pos hseen]
      · rw [ih,if_pos (.head _)]
        simp [hlarge]
      · rw [ih,if_pos (.head _),Entries.find_insert,if_pos rfl]
        simp [hlarge]
    · rw [List.find?_cons_of_neg (by simpa using hid)]
      have hmem : id ∈ pack.identity text::seenPacks ↔ id ∈ seenPacks := by
        rw [mem_cons,or_iff_right (Ne.symm hid)]
      by_cases hseen : pack.identity text ∈ seenPacks
      · rw [if_pos hseen,ih]
      · rw [if_neg hseen]
        by_cases hlarge : maxInt<pack.size
        · rw [if_pos hlarge,ih]
          simp only [hmem]
        · rw [if_neg hlarge,ih,Entries.find_insert,if_neg (Ne.symm hid)]
          simp only [hmem]

lemma find_budgetStep {offered : Entries String ℕ} {older : List (BudgetEvent U)}
    (h : offered.find id=declaredSize text id older) (event : BudgetEvent U) :
    (budgetStep text offered event).find id=declaredSize text id (event::older) := by
  cases event with
  | progress => exact h
  | admitOffer info =>
    cases info with
    | none => rfl
    | some packs =>
      refine (find_admitPacks packs [] Entries.empty id).trans ?_
      unfold declaredSize
      rw [if_neg not_mem_nil,Option.bind_some]
      cases packs.find? fun pack=>pack.identity text=id <;> rfl
  | started uuid version size =>
    unfold budgetStep declaredSize
    dsimp only
    rw [← h]
    by_cases hlarge : maxInt < size
    · simp [hlarge,not_le.2 hlarge]
    · have hle := not_lt.1 hlarge
      by_cases hid : id=resourcePackIdentity (text.toString uuid) version
      · subst hid
        cases hfound : offered.find (resourcePackIdentity (text.toString uuid) version) with
        | none => simp [hlarge,hfound]
        | some declared => simp [hlarge,hle,Entries.find_insert]
      · by_cases hknown : (offered.find (resourcePackIdentity (text.toString uuid) version)).isSome
        · simp [hlarge,hknown,hid,Entries.find_insert]
        · simp [hlarge,hknown,hid]

lemma find_budgetRun (events : List (BudgetEvent U)) (id : String) :
    (budgetRun text events).find id=declaredSize text id events.reverse := by
  induction events using List.reverseRecOn with
  | nil => rfl
  | append_singleton events event ih =>
    unfold budgetRun at ih ⊢
    rw [foldl_append,reverse_append]
    exact find_budgetStep ih event

/-- A join that succeeds hands over what a required stack applies, and what a required offer's
entries of the same sub-pack name; all that is handed over is in stack order, once for each
identity, as first offered, acquired and within the size declared. -/
theorem join_hands_required {events : List (BudgetEvent U)} (hprojects : Projects project)
    (hnegotiated : Negotiated text acquired offer stack)
    (hjoin : joinPacks text project builtin (excludes text (budgetRun text events)) (some stack)
      (some offer) = .ok handed) :
    (∀ entry ∈ stack.entries, builtin entry.uuid entry.version = false → ∀ uuid offered,
      text.parse entry.uuid = some uuid →
      offerOf text offer.texturePacks (resourcePackIdentity (text.toString uuid) entry.version) = some offered →
      (entry.uuid = text.toString uuid ∨
        ∃ pack, entry.pack = some pack ∧ excludes text (budgetRun text events) pack = false) →
      (stack.required=true ∨ offer.texturePackRequired=true ∧ offered.info.subPackName=entry.subPackName) →
      resourcePackIdentity (text.toString uuid) entry.version ∈ handed.map handedIdentity) ∧
    (∃ chosen, chosen.Sublist stack.entries ∧ List.Forall₂ (Hands text builtin offer.texturePacks) chosen handed) ∧
    (handed.map handedIdentity).Nodup ∧
    ∀ pack ∈ handed, ∃ uuid, pack.1.uuid = text.toString uuid ∧
      acquired uuid pack.1.version = some pack.2 ∧ 0 ≤ pack.2.size ∧
        ∃ declared, declaredSize text (handedIdentity pack) events.reverse = some declared ∧
          pack.2.size.toNat ≤ declared := by
  obtain ⟨hretained,bareOffer,bareStack,hchoose⟩ := joinPacks_spec hprojects hjoin
  obtain ⟨⟨chosen,hsub,hall⟩,hnodup,-,hkept⟩ := choose_spec hchoose
  refine ⟨fun entry hmem hlisted uuid offered hparse hoffered hspelled hrequired => ?_,
    ⟨chosen,hsub.trans filter_sublist,hall.imp fun entry pack hhands => ?_⟩,hnodup,
    fun pack hpack => ?_⟩
  · have hofferedMem := List.mem_of_find?_eq_some hoffered
    have hofferedId : offered.info.identity text = resourcePackIdentity (text.toString uuid) entry.version := by
      simpa using List.find?_some hoffered
    obtain ⟨hofferedUuid,hofferedVersion⟩ := identity_inj hofferedId
    -- The entry's archive is kept by the projection.
    have hkeptPack : ∃ pack, entry.pack = some pack ∧ admitted text
        (excludes text (budgetRun text events)) stack (packIdentity text pack) = true := by
      rcases hspelled with hspelled | ⟨pack,hpack,hallowed⟩
      · have hadmitted := hretained (hrequired.symm.imp And.left id) entry hmem
          ⟨offered,hofferedMem,by rw [hofferedId,hspelled]⟩
        obtain ⟨pack,hpack,-,hsame⟩ := admitted_iff.1 hadmitted
        rw [hspelled] at hsame
        obtain ⟨rfl,hversion⟩ := identity_inj hsame
        refine ⟨pack,?_,?_⟩
        · rw [hnegotiated.spelled entry hmem _ hspelled,← hversion]
          exact hnegotiated.packs pack hpack
        · rw [show packIdentity text pack=_ from hsame,← hspelled]
          exact hadmitted
      · exact ⟨pack,hpack,admitted_iff.2 ⟨pack,(hnegotiated.stacked entry hmem pack hpack).1, hallowed,rfl⟩⟩
    obtain ⟨pack,hpack,hkeep⟩ := hkeptPack
    obtain ⟨hstacked,hpackParse,hpackVersion⟩ := hnegotiated.stacked entry hmem pack hpack
    have hpackUuid : uuid=pack.uuid := Option.some.inj (hparse.symm.trans hpackParse)
    have hfiltered : entry ∈ stack.entries.filter fun entry => entry.pack.elim (bareStack entry)
        fun pack => admitted text (excludes text (budgetRun text events)) stack (packIdentity text pack) := by
      rw [mem_filter,hpack]
      exact ⟨hmem,hkeep⟩
    have hofferedPack : offered.pack = some pack := by
      rw [hnegotiated.offered offered hofferedMem,hofferedUuid,hofferedVersion,hpackUuid, ← hpackVersion]
      exact hnegotiated.packs pack hstacked
    obtain ⟨selected,hselected,hwhere⟩ := hkept entry hfiltered hlisted (hrequired.imp id fun hoffer =>
      hnegotiated.candidate_kept hparse hoffered hofferedPack hkeep hoffer.2)
    obtain ⟨uuid',_,hparse',hid,-⟩ := candidate_spec hselected
    rw [hparse] at hparse'
    cases hparse'
    rw [← hid]
    exact hwhere.resolve_left not_mem_nil
  · obtain ⟨info,archive,hcandidate,hpack⟩ := hhands.selected
    exact ⟨hhands.listed,info,archive,(hnegotiated.candidate_filter hcandidate).1,hpack⟩
  · obtain ⟨entry,-,hhands⟩ := hands_of_mem hall hpack
    obtain ⟨info,archive,hcandidate,rfl⟩ := hhands.selected
    obtain ⟨-,hkeep,huuid,hversion,hacquired⟩ := hnegotiated.candidate_filter hcandidate
    have hallowed := hnegotiated.not_excluded hacquired hkeep
    have hidentity : packIdentity text archive = info.identity text := by
      unfold packIdentity TexturePackInfo.identity
      rw [huuid,hversion]
    unfold excludes at hallowed
    rw [find_budgetRun,hidentity] at hallowed
    refine ⟨info.uuid,rfl,by rwa [← huuid,← hversion],?_⟩
    cases hdeclared : declaredSize text (info.identity text) events.reverse with
    | none =>
      rw [hdeclared] at hallowed
      cases hallowed
    | some declared =>
      rw [hdeclared] at hallowed
      simp only [Bool.or_eq_false_iff,decide_eq_false_iff_not,not_lt] at hallowed
      exact ⟨hallowed.1,declared,hdeclared,hallowed.2⟩

end Joins

section Examples

def oneText : UuidText Unit where
  toString _ := "11223344-5566-7788-99aa-bbccddeeff00"
  parse spelled := if spelled = "11223344-5566-7788-99aa-bbccddeeff00" then some () else none
  length_toString _ := rfl
  parse_toString _ := rfl

def onePack : Archive Unit := ⟨(),"1.0.0",4⟩

def oneOffer : ResourcePackOfferSnapshot Unit := ⟨[⟨⟨(),"1.0.0",4,"key",""⟩,some onePack⟩],true⟩

variable (subPack : String)

def oneStack : ResourcePackStackSnapshot Unit :=
  ⟨[⟨oneText.toString (),"1.0.0",subPack,some onePack⟩],[onePack],false⟩

def keepAccepted : Projection Unit := fun offer stack keep =>
  (⟨offer.texturePacks.filter fun entry=>entry.pack.any keep,offer.texturePackRequired⟩,
    ⟨stack.entries.filter fun entry=>entry.pack.any keep,stack.packs.filter keep,stack.required⟩)

def oneJoin : Except JoinError (List (SessionPack × Archive Unit)) :=
  joinPacks oneText keepAccepted (fun _ _=>false)
    (excludes oneText (budgetRun oneText [.admitOffer (some (oneOffer.texturePacks.map (·.info)))]))
    (some (oneStack subPack)) (some oneOffer)

lemma projects_keepAccepted : Projects keepAccepted where
  offer _ _ _ := ⟨fun _=>false,filter_congr fun entry _=>by cases entry.pack <;> rfl⟩
  stack _ _ _ := ⟨fun _=>false,filter_congr fun entry _=>by cases entry.pack <;> rfl⟩
  required _ _ _ := rfl

lemma negotiated_one : Negotiated oneText (fun _ version=>if version = "1.0.0" then some onePack else none) oneOffer
      (oneStack subPack) where
  manifest h := by
    split at h
    · rename_i hversion
      cases h
      exact ⟨rfl,hversion.symm⟩
    · cases h
  offered entry hmem := by
    rw [mem_singleton.1 hmem]
    rfl
  spelled entry hmem _ _ := by
    rw [mem_singleton.1 hmem]
    rfl
  stacked entry hmem pack hpack := by
    rw [mem_singleton.1 hmem] at hpack ⊢
    cases hpack
    exact ⟨mem_singleton_self _,rfl,rfl⟩
  packs pack hmem := by
    rw [mem_singleton.1 hmem]
    rfl

theorem join_hands_required_one : ∃ handed, oneJoin "" = .ok handed ∧
    "11223344-5566-7788-99aa-bbccddeeff00_1.0.0" ∈ handed.map handedIdentity := by
  have hjoin : oneJoin "" = .ok [(⟨"11223344-5566-7788-99aa-bbccddeeff00","1.0.0","","key",4⟩, onePack)] := rfl
  exact ⟨_,hjoin,(join_hands_required projects_keepAccepted (negotiated_one "") hjoin).1 _
    (mem_singleton_self _) rfl () _ rfl rfl (.inl rfl) (.inr ⟨rfl,rfl⟩)⟩

/-- A required offer whose stack is optional: the entry of another sub-pack is dropped. -/
theorem optional_stack_drops : oneOffer.texturePackRequired=true ∧ oneJoin "low" = .ok [] :=
  ⟨rfl,rfl⟩

end Examples

end Cinnabar.ResourcePacks
