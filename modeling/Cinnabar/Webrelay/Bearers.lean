import Cinnabar.Webrelay.Sections

/-! # The bearers of a session -/

namespace Cinnabar.Webrelay

open Finset Function

variable {T A : Type} [DecidableEq T] [DecidableEq A]

namespace Relay

variable {relay relay' : Relay T A} {s : ℕ}

def Owns (relay : Relay T A) (s : ℕ) (t : T) : Prop :=
  (relay.webSessions s).token=some t ∨ (relay.webSessions s).previousToken=some t

/-- The valid bearers are those its live session owns, with the expiry set at their issue. -/
structure Bearers (relay : Relay T A) : Prop where
  mapped : ∀ {t bearer}, relay.tokens t=some bearer → bearer.session ∈ relay.sessions ∧ relay.Owns bearer.session t ∧
      ∃ issue ∈ relay.issued, issue.token=t ∧ issue.session=bearer.session ∧ bearer.expires=issue.now+resumeTTL
  live : ∀ {s t}, s ∈ relay.sessions → relay.Owns s t → ∃ bearer, relay.tokens t=some bearer ∧ bearer.session=s
  once : (relay.issued.map Issue.token).Nodup
  made : ∀ {s}, s ∈ relay.sessions → s < relay.made

section

variable (h : relay.Bearers)
include h

lemma Bearers.congr (htokens : relay'.tokens=relay.tokens)
    (hsessions : relay'.sessions=relay.sessions) (hissued : relay'.issued=relay.issued)
    (hmade : relay'.made=relay.made) (howns : ∀ s t, relay'.Owns s t ↔ relay.Owns s t) :
    relay'.Bearers where
  mapped := by
    intro t bearer hbearer
    rw [htokens] at hbearer
    rw [hsessions,hissued,howns]
    exact h.mapped hbearer
  live := by
    intro s t hs ht
    rw [hsessions] at hs
    rw [htokens]
    exact h.live hs ((howns s t).1 ht)
  once := by
    rw [hissued]
    exact h.once
  made := by
    rw [hsessions,hmade]
    exact h.made

/-- A bearer that was never issued is not valid. -/
lemma Bearers.not_new {fresh : T} (hnew : relay.isNew fresh=true) : relay.tokens fresh=none := by
  by_contra hsome
  obtain ⟨bearer,hbearer⟩ := Option.ne_none_iff_exists'.1 hsome
  obtain ⟨-,-,issue,hissue,htoken,-⟩ := h.mapped hbearer
  unfold isNew at hnew
  rw [decide_eq_true_eq] at hnew
  exact hnew (List.mem_map.2 ⟨issue,hissue,htoken⟩)

lemma Bearers.rotated (retain : Option T) {fresh : T} {now : ℕ}
    (hs : s ∈ relay.sessions) (hnew : relay.isNew fresh=true)
    (hretain : ∀ t, retain=some t → relay.Owns s t)
    (htokens : relay'.tokens=relay.rotatedTokens s retain fresh now)
    (hsessions : relay'.sessions=relay.sessions)
    (hissued : relay'.issued = ⟨relay.issued.length,fresh,s,now⟩ :: relay.issued)
    (hmade : relay'.made=relay.made)
    (hself : ∀ t, relay'.Owns s t ↔ some fresh=some t ∨ retain=some t)
    (hothers : ∀ j, j≠s → ∀ t, relay'.Owns j t ↔ relay.Owns j t) : relay'.Bearers where
  mapped := by
    intro t bearer hbearer
    rw [htokens] at hbearer
    rw [hsessions,hissued]
    by_cases ht : t=fresh
    · rw [ht,rotatedTokens_fresh] at hbearer
      cases hbearer
      exact ⟨hs,(hself t).2 (.inl (by rw [ht])),_,.head _,ht.symm,rfl,rfl⟩
    · rw [rotatedTokens_of_ne ht] at hbearer
      split_ifs at hbearer with hgone
      obtain ⟨hlive,howns,issue,hissue,hspec⟩ := h.mapped hbearer
      refine ⟨hlive,?_,issue,.tail _ hissue,hspec⟩
      by_cases hsame : bearer.session=s
      · rw [hsame] at howns ⊢
        rw [hself]
        by_contra hnot
        exact hgone ⟨howns,fun heq=>hnot (.inr heq)⟩
      · exact (hothers _ hsame t).2 howns
  live := by
    intro j t hj ht
    rw [hsessions] at hj
    rw [htokens]
    have hold : relay.Owns j t → t≠fresh := by
      rintro howns rfl
      obtain ⟨bearer,hbearer,-⟩ := h.live hj howns
      rw [h.not_new hnew] at hbearer
      cases hbearer
    by_cases hjs : j=s
    · subst hjs
      rcases (hself t).1 ht with heq | heq
      · cases heq
        exact ⟨_,rotatedTokens_fresh ..,rfl⟩
      · have howns := hretain t heq
        rw [rotatedTokens_of_ne (hold howns),if_neg fun hgone=>hgone.2 heq]
        exact h.live hj howns
    · have howns := (hothers j hjs t).1 ht
      obtain ⟨bearer,hbearer,hsession⟩ := h.live hj howns
      refine ⟨bearer,?_,hsession⟩
      rw [rotatedTokens_of_ne (hold howns),if_neg ?_]
      · exact hbearer
      · -- no bearer belongs to two sessions
        rintro ⟨hboth,-⟩
        obtain ⟨bearer',hbearer',hsession'⟩ := h.live hs hboth
        rw [hbearer] at hbearer'
        cases hbearer'
        exact hjs (hsession.symm.trans hsession')
  once := by
    rw [hissued,List.map_cons,List.nodup_cons]
    unfold isNew at hnew
    rw [decide_eq_true_eq] at hnew
    exact ⟨hnew,h.once⟩
  made := by
    rw [hsessions,hmade]
    exact h.made

lemma Bearers.create (htokens : relay'.tokens=relay.tokens)
    (hsessions : relay'.sessions=insert relay.made relay.sessions)
    (hissued : relay'.issued=relay.issued) (hmade : relay'.made=relay.made+1)
    (hself : ∀ t, ¬relay'.Owns relay.made t)
    (hothers : ∀ j, j≠relay.made → ∀ t, relay'.Owns j t ↔ relay.Owns j t) : relay'.Bearers where
  mapped := by
    intro t bearer hbearer
    rw [htokens] at hbearer
    obtain ⟨hlive,howns,hissue⟩ := h.mapped hbearer
    rw [hsessions,hissued]
    exact ⟨mem_insert_of_mem hlive,(hothers _ (h.made hlive).ne t).2 howns,hissue⟩
  live := by
    intro j t hj ht
    rw [hsessions,mem_insert] at hj
    rw [htokens]
    rcases hj with rfl | hj
    · exact absurd ht (hself t)
    · exact h.live hj ((hothers j (h.made hj).ne t).1 ht)
  once := by
    rw [hissued]
    exact h.once
  made := by
    intro j hj
    rw [hsessions,mem_insert] at hj
    rw [hmade]
    rcases hj with rfl | hj
    · exact Nat.lt_succ_self _
    · exact (h.made hj).trans (Nat.lt_succ_self _)

lemma Bearers.forget (hs : s ∈ relay.sessions)
    (htokens : relay'.tokens=deleteToken (deleteToken relay.tokens (relay.webSessions s).token)
      (relay.webSessions s).previousToken)
    (hsessions : relay'.sessions=relay.sessions.erase s) (hissued : relay'.issued=relay.issued)
    (hmade : relay'.made=relay.made) (howns : ∀ j t, relay'.Owns j t ↔ relay.Owns j t) :
    relay'.Bearers where
  mapped := by
    intro t bearer hbearer
    rw [htokens,deleteToken_apply,deleteToken_apply] at hbearer
    split_ifs at hbearer with hprevious htoken
    obtain ⟨hlive,hown,hissue⟩ := h.mapped hbearer
    rw [hsessions,hissued,howns,mem_erase]
    refine ⟨⟨fun hsame=>?_,hlive⟩,hown,hissue⟩
    rw [hsame] at hown
    exact hown.elim htoken hprevious
  live := by
    intro j t hj ht
    rw [hsessions,mem_erase] at hj
    obtain ⟨bearer,hbearer,hsession⟩ := h.live hj.2 ((howns j t).1 ht)
    have hnot : ¬relay.Owns s t := by
      intro hboth
      obtain ⟨bearer',hbearer',hsession'⟩ := h.live hs hboth
      rw [hbearer] at hbearer'
      cases hbearer'
      exact hj.1 (hsession.symm.trans hsession')
    refine ⟨bearer,?_,hsession⟩
    rw [htokens,deleteToken_apply,deleteToken_apply,if_neg fun heq=>hnot (.inr heq), if_neg fun heq=>hnot (.inl heq)]
    exact hbearer
  once := by
    rw [hissued]
    exact h.once
  made := by
    intro j hj
    rw [hsessions,mem_erase] at hj
    rw [hmade]
    exact h.made hj.2

lemma Bearers.resumes {t : T} {now : ℕ}
    (hresume : relay.resumeLocked t now=some s) : s ∈ relay.sessions ∧ relay.Owns s t := by
  unfold resumeLocked at hresume
  split at hresume
  · cases hresume
  · next bearer hbearer =>
    split_ifs at hresume
    cases hresume
    exact ⟨(h.mapped hbearer).1,(h.mapped hbearer).2.1⟩

end

/-- `perIP` counts the live sessions of each address, within the limit. -/
structure PerAddress (relay : Relay T A) : Prop where
  counts : ∀ a, relay.perIP a = (relay.sessions.filter fun s=>(relay.webSessions s).client=a).card
  limit : ∀ a, relay.perIP a ≤ maxPerIP

section

variable (h : relay.PerAddress)
include h

lemma PerAddress.congr (hperIP : relay'.perIP=relay.perIP) (hsessions : relay'.sessions=relay.sessions)
    (hclient : ∀ s, (relay'.webSessions s).client = (relay.webSessions s).client) :
    relay'.PerAddress where
  counts := by
    intro a
    rw [hperIP,hsessions,h.counts]
    simp only [hclient]
  limit := by
    rw [hperIP]
    exact h.limit

lemma PerAddress.create {client : A} (hnew : relay.made ∉ relay.sessions) (hroom : relay.perIP client < maxPerIP)
    (hperIP : relay'.perIP=update relay.perIP client (relay.perIP client+1))
    (hsessions : relay'.sessions=insert relay.made relay.sessions)
    (hself : (relay'.webSessions relay.made).client=client)
    (hclient : ∀ s, s≠relay.made →
      (relay'.webSessions s).client = (relay.webSessions s).client) : relay'.PerAddress where
  counts := by
    intro a
    have hsame : (relay.sessions.filter fun s=>(relay'.webSessions s).client=a) =
        relay.sessions.filter fun s=>(relay.webSessions s).client=a := by
      refine filter_congr fun s hs=>?_
      rw [hclient s fun heq=>hnew (by rw [← heq]; exact hs)]
    rw [hperIP,hsessions,filter_insert,hself,hsame,update_apply]
    by_cases ha : a=client
    · rw [if_pos ha,if_pos ha.symm,card_insert_of_notMem fun hmem =>
        hnew (mem_filter.1 hmem).1,ha,h.counts]
    · rw [if_neg ha,if_neg fun heq=>ha heq.symm,h.counts]
  limit := by
    intro a
    rw [hperIP,update_apply]
    split_ifs
    · exact hroom
    · exact h.limit a

lemma PerAddress.erased (hs : s ∈ relay.sessions) (a : A) :
    ((relay.sessions.erase s).filter fun s=>(relay.webSessions s).client=a).card =
      update relay.perIP (relay.webSessions s).client
        (relay.perIP (relay.webSessions s).client-1) a := by
  rw [filter_erase,update_apply]
  split_ifs with ha
  · rw [card_erase_of_mem (mem_filter.2 ⟨hs,ha.symm⟩),ha,h.counts]
  · rw [erase_eq_of_notMem fun hmem=>ha (mem_filter.1 hmem).2.symm,h.counts]

lemma PerAddress.forget (hs : s ∈ relay.sessions) (hperIP : relay'.perIP=update relay.perIP (relay.webSessions s).client
      (relay.perIP (relay.webSessions s).client-1))
    (hsessions : relay'.sessions=relay.sessions.erase s)
    (hclient : ∀ s, (relay'.webSessions s).client = (relay.webSessions s).client) :
    relay'.PerAddress where
  counts := by
    intro a
    rw [hsessions]
    simp only [hclient]
    rw [h.erased hs,hperIP]
  limit := by
    intro a
    rw [hperIP,update_apply]
    split_ifs with ha
    · exact (Nat.sub_le _ _).trans (h.limit _)
    · exact h.limit a

lemma PerAddress.move {client : A} (hs : s ∈ relay.sessions)
    (hroom : (relay.webSessions s).client=client ∨ relay.perIP client < maxPerIP)
    (hperIP : relay'.perIP = (relay.moveClient s client).perIP)
    (hsessions : relay'.sessions=relay.sessions)
    (hself : (relay'.webSessions s).client=client)
    (hothers : ∀ j, j≠s → (relay'.webSessions j).client = (relay.webSessions j).client) :
    relay'.PerAddress := by
  by_cases hclient : (relay.webSessions s).client=client
  · refine h.congr ?_ hsessions fun j=>?_
    · rw [hperIP]
      unfold moveClient
      rw [if_pos hclient]
    · by_cases hj : j=s
      · rw [hj,hself,hclient]
      · exact hothers j hj
  · have hmoved : relay'.perIP=update (update relay.perIP
        (relay.webSessions s).client (relay.perIP (relay.webSessions s).client-1)) client
        (relay.perIP client+1) := by
      rw [hperIP]
      unfold moveClient
      dsimp only
      rw [if_neg hclient,update_of_ne fun heq=>hclient heq.symm]
    refine ⟨fun a=>?_,fun a=>?_⟩
    · have hsplit : relay.sessions=insert s (relay.sessions.erase s) := (insert_erase hs).symm
      have hsame : ((relay.sessions.erase s).filter fun j=>(relay'.webSessions j).client=a) =
          (relay.sessions.erase s).filter fun j=>(relay.webSessions j).client=a := by
        refine filter_congr fun j hj=>?_
        rw [hothers j (mem_erase.1 hj).1]
      rw [hmoved,hsessions,hsplit,filter_insert,hself,hsame,update_apply]
      by_cases ha : a=client
      · rw [if_pos ha,if_pos ha.symm,card_insert_of_notMem fun hmem =>
          notMem_erase s _ (mem_filter.1 hmem).1,h.erased hs,ha,
          update_of_ne fun heq=>hclient heq.symm]
      · rw [if_neg ha,if_neg fun heq=>ha heq.symm,h.erased hs]
    · rw [hmoved,update_apply]
      by_cases ha : a=client
      · rw [if_pos ha]
        exact hroom.resolve_left hclient
      · rw [if_neg ha,update_apply]
        split_ifs
        · exact (Nat.sub_le _ _).trans (h.limit _)
        · exact h.limit a

end

end Relay

end Cinnabar.Webrelay
