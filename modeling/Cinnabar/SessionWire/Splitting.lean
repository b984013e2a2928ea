import Cinnabar.SessionWire.Outbound

/-! # Splitting what was framed

A batch body is entries, each the length of a packet and the packet.
-/

namespace Cinnabar.SessionWire

open Reader List

variable {body rest packet entry : Bytes} {packets entries bodies : List Bytes} {n : ℕ}

def IsEntry (entry packet : Bytes) : Prop :=
  ∃ length, Leb.Holds length packet.length ∧ length.length≤5 ∧ packet.length<2^32 ∧ entry=length++packet

def Frames (body : Bytes) (packets : List Bytes) : Prop :=
  ∃ entries, body=entries.flatten ∧ List.Forall₂ IsEntry entries packets

section Lengths

lemma readVaruint32_eq_some : readVaruint32 body=some (n,rest) ↔
    ∃ bytes, body=bytes++rest ∧ Leb.Holds bytes n ∧ bytes.length≤5 ∧ n<2^32 :=
  Leb.read_eq_some

lemma holds_putVaruint32 (h : n<2^32) : Leb.Holds (putVaruint32 n) n :=
  Leb.holds_write (h.trans (by decide))

lemma isEntry_put (h : packet.length<2^32) : IsEntry (putVaruint32 packet.length++packet) packet :=
  ⟨_,holds_putVaruint32 h,Leb.length_write_le 4 _,h,rfl⟩

lemma Frames.nil : Frames [] [] := ⟨[],rfl,.nil⟩

lemma frames_cons : Frames body (packet::packets) ↔
    ∃ entry rest, body=entry++rest ∧ IsEntry entry packet ∧ Frames rest packets := by
  constructor
  · rintro ⟨entries,rfl,h⟩
    obtain ⟨entry,entries,hentry,hentries,rfl⟩ := forall₂_cons_right_iff.1 h
    exact ⟨entry,entries.flatten,rfl,hentry,entries,rfl,hentries⟩
  · rintro ⟨entry,rest,rfl,hentry,entries,rfl,hentries⟩
    exact ⟨entry::entries,rfl,.cons hentry hentries⟩

lemma Frames.append {others : List Bytes} (h : Frames body packets) (h' : Frames rest others) :
    Frames (body++rest) (packets++others) := by
  obtain ⟨entries,rfl,hentries⟩ := h
  obtain ⟨otherEntries,rfl,hothers⟩ := h'
  exact ⟨entries++otherEntries,flatten_append.symm,rel_append hentries hothers⟩

lemma IsEntry.frames (h : IsEntry entry packet) : Frames entry [packet] :=
  ⟨[entry],by simp,.cons h .nil⟩

lemma frames_nil : Frames [] packets ↔ packets = [] := by
  cases packets with
  | nil => exact iff_of_true Frames.nil rfl
  | cons packet packets =>
    refine iff_of_false (fun h=>?_) (cons_ne_nil _ _)
    obtain ⟨entry,rest,hnil,⟨length,hholds,-,-,rfl⟩,-⟩ := frames_cons.1 h
    have hentry := (append_eq_nil_iff.1 hnil.symm).1
    exact hholds.ne_nil (append_eq_nil_iff.1 hentry).1

lemma Frames.length_lt (h : Frames body packets) (hmem : packet ∈ packets) : packet.length<2^32 := by
  induction packets generalizing body with
  | nil => cases hmem
  | cons first packets ih =>
    obtain ⟨entry,rest,-,⟨length,-,-,hlt,-⟩,hrest⟩ := frames_cons.1 h
    rcases mem_cons.1 hmem with rfl | hmem
    · exact hlt
    · exact ih hrest hmem

end Lengths

section Splitting

lemma splitEntries_cons {fuel : ℕ} {byte : UInt8} (hbody : body=byte::rest) :
    splitEntries (fuel+1) body = .ok packets ↔ ∃ packet tail others, packets=packet::others ∧
      packet ≠ [] ∧ readVaruint32 body=some (packet.length,packet++tail) ∧
      splitEntries fuel tail = .ok others := by
  subst hbody
  rw [splitEntries.eq_3 _ _ (by simp)]
  cases hread : readVaruint32 (byte::rest) with
  | none => simp
  | some read =>
    obtain ⟨length,last⟩ := read
    simp only [Option.some.injEq,Prod.mk.injEq]
    by_cases hbad : length=0 ∨ last.length<length
    · rw [if_pos hbad]
      refine iff_of_false (fun h=>by cases h) ?_
      rintro ⟨packet,tail,others,-,hne,⟨rfl,rfl⟩,-⟩
      rw [length_append] at hbad
      have hpos := length_pos_of_ne_nil hne
      omega
    · rw [if_neg hbad]
      have hlength : (last.take length).length=length := by
        rw [length_take]
        omega
      constructor
      · intro h
        split at h
        · rename_i others hothers
          cases h
          refine ⟨last.take length,last.drop length,others,rfl,?_,⟨hlength.symm,?_⟩,hothers⟩
          · intro hnil
            rw [hnil] at hlength
            exact hbad (.inl hlength.symm)
          · exact (take_append_drop length last).symm
        · cases h
      · rintro ⟨packet,tail,others,rfl,-,⟨rfl,rfl⟩,hothers⟩
        rw [drop_left,take_left,hothers]

lemma splitEntries_eq_ok {fuel : ℕ} (hfuel : body.length≤fuel) :
    splitEntries fuel body = .ok packets ↔ (∀ packet ∈ packets, packet ≠ []) ∧
      Frames body packets := by
  induction fuel generalizing body packets with
  | zero =>
    rw [length_eq_zero_iff.1 (Nat.le_zero.1 hfuel),splitEntries,frames_nil,Except.ok.injEq]
    constructor
    · rintro rfl
      exact ⟨fun _ hmem=>absurd hmem not_mem_nil,rfl⟩
    · exact fun h=>h.2.symm
  | succ fuel ih =>
    cases hbody : body with
    | nil =>
      rw [splitEntries,frames_nil,Except.ok.injEq]
      constructor
      · rintro rfl
        exact ⟨fun _ hmem=>absurd hmem not_mem_nil,rfl⟩
      · exact fun h=>h.2.symm
    | cons byte tail =>
      rw [← hbody,splitEntries_cons hbody]
      constructor
      · rintro ⟨packet,rest,others,rfl,hne,hread,hothers⟩
        obtain ⟨length,hlength,hholds,hfive,hlt⟩ := readVaruint32_eq_some.1 hread
        have hshort : rest.length≤fuel := by
          have hpos := length_pos_of_ne_nil hholds.ne_nil
          rw [hlength,length_append,length_append] at hfuel
          omega
        obtain ⟨hnonempty,hframes⟩ := (ih hshort).1 hothers
        refine ⟨forall_mem_cons.2 ⟨hne,hnonempty⟩,frames_cons.2 ⟨length++packet,rest,?_,
          ⟨length,hholds,hfive,hlt,rfl⟩,hframes⟩⟩
        rw [hlength,append_assoc]
      · rintro ⟨hnonempty,hframes⟩
        cases packets with
        | nil =>
          obtain ⟨entries,hentries,hnil⟩ := hframes
          cases hnil
          exact absurd (hbody.symm.trans hentries) (cons_ne_nil _ _)
        | cons packet others =>
          obtain ⟨entry,rest,hsplit,⟨length,hholds,hfive,hlt,rfl⟩,hrest⟩ := frames_cons.1 hframes
          obtain ⟨hne,hothers⟩ := forall_mem_cons.1 hnonempty
          rw [append_assoc] at hsplit
          have hshort : rest.length≤fuel := by
            have hpos := length_pos_of_ne_nil hholds.ne_nil
            rw [hsplit,length_append,length_append] at hfuel
            omega
          exact ⟨packet,rest,others,rfl,hne, readVaruint32_eq_some.2 ⟨length,hsplit,hholds,hfive,hlt⟩,
            (ih hshort).2 ⟨hothers,hrest⟩⟩

lemma splitBatch_eq_ok : splitBatch body = .ok packets ↔
    packets ≠ [] ∧ (∀ packet ∈ packets, packet ≠ []) ∧ Frames body packets := by
  rw [← splitEntries_eq_ok le_rfl,splitBatch]
  split
  · rename_i hnil
    rw [hnil,Except.ok.injEq]
    exact iff_of_false (fun h=>by cases h) fun h=>h.1 h.2.symm
  · rename_i hne
    constructor
    · intro h
      refine ⟨?_,h⟩
      rintro rfl
      exact hne h
    · exact fun h=>h.2

end Splitting

section Writers

lemma frames_putPackets (h : ∀ packet ∈ packets, packet ≠ [] ∧ packet.length<2^32)
    (frame : Bytes) : ∃ body, putPackets frame packets = .ok (frame++body) ∧
      Frames body packets := by
  induction packets generalizing frame with
  | nil => exact ⟨[],by rw [putPackets,append_nil],Frames.nil⟩
  | cons packet packets ih =>
    obtain ⟨⟨hne,hlt⟩,hrest⟩ := forall_mem_cons.1 h
    obtain ⟨body,hbody,hframes⟩ := ih hrest (frame++putVaruint32 packet.length++packet)
    refine ⟨putVaruint32 packet.length++packet++body,?_, frames_cons.2 ⟨_,body,rfl,isEntry_put hlt,hframes⟩⟩
    rw [putPackets,if_pos ⟨hlt,fun hzero=>hne (length_eq_zero_iff.1 hzero)⟩,hbody]
    simp only [append_assoc]

lemma encodeBatch_splits (hne : packets ≠ []) (h : ∀ packet ∈ packets, packet ≠ [] ∧ packet.length<2^32) :
    ∃ body, encodeBatch packets = .ok (kindBatch::body) ∧ splitBatch body = .ok packets := by
  obtain ⟨body,hbody,hframes⟩ := frames_putPackets h [kindBatch]
  have hsplit := splitBatch_eq_ok.2 ⟨hne,fun packet hmem=>(h packet hmem).1,hframes⟩
  refine ⟨body,?_,hsplit⟩
  have hlength : (kindBatch::body).length≠1 := by
    intro hone
    rw [length_eq_zero_iff.1 (Nat.succ.inj hone)] at hframes
    exact hne (frames_nil.1 hframes)
  rw [encodeBatch,hbody]
  exact if_neg hlength

variable {P : Type} {codec : Codec P}

lemma encodePacket_bounds {sent : Packet P} (h : encodePacket codec sent=some packet) :
    packet ≠ [] ∧ packet.length<2^32 := by
  unfold encodePacket at h
  split at h
  case isFalse => cases h
  split at h
  case h_2 => cases h
  dsimp only at h
  split at h
  case isFalse => cases h
  rename_i hlt
  cases h
  refine ⟨fun hnil=>?_,hlt⟩
  have hpos : 0 < (putVaruint32 sent.header.toRaw).length := Leb.length_write_pos 4 _
  rw [(append_eq_nil_iff.1 hnil).1] at hpos
  exact Nat.lt_irrefl 0 hpos

lemma frames_encodeEntry (codec : Codec P) (sent : List (Packet P)) (frame : Bytes) :
    ∃ body, sent.foldl (fun frame packet=>encodeEntry codec packet frame) frame=frame++body ∧
      Frames body (sent.filterMap (encodePacket codec)) := by
  induction sent generalizing frame with
  | nil => exact ⟨[],(append_nil _).symm,Frames.nil⟩
  | cons first sent ih =>
    rw [foldl_cons]
    cases hpacket : encodePacket codec first with
    | none =>
      rw [filterMap_cons_none hpacket,encodeEntry,hpacket]
      exact ih frame
    | some packet =>
      rw [filterMap_cons_some hpacket,encodeEntry,hpacket]
      obtain ⟨body,hbody,hframes⟩ := ih (frame ++ (putVaruint32 packet.length++packet))
      refine ⟨putVaruint32 packet.length++packet++body,?_,frames_cons.2 ⟨_,body,rfl,
        isEntry_put (encodePacket_bounds hpacket).2,hframes⟩⟩
      rw [hbody,append_assoc]

lemma batchFrame_splits (sent : List (Packet P)) :
    (sent.filterMap (encodePacket codec) = [] → batchFrame codec sent=none) ∧
    (sent.filterMap (encodePacket codec) ≠ [] → ∃ body, batchFrame codec sent=some (kindBatch::body) ∧
      splitBatch body = .ok (sent.filterMap (encodePacket codec))) := by
  obtain ⟨body,hbody,hframes⟩ := frames_encodeEntry codec sent [kindBatch]
  rw [batchFrame,hbody]
  constructor
  · intro hnil
    obtain ⟨entries,rfl,hentries⟩ := hframes
    rw [hnil] at hentries
    cases hentries
    rfl
  · intro hne
    refine ⟨body,if_pos ?_,splitBatch_eq_ok.2 ⟨hne,?_,hframes⟩⟩
    · have hpos : 0<body.length := by
        refine length_pos_of_ne_nil ?_
        rintro rfl
        exact hne (frames_nil.1 hframes)
      rw [length_append]
      exact Nat.lt_add_of_pos_right hpos
    · intro packet hmem
      obtain ⟨_,-,hpacket⟩ := mem_filterMap.1 hmem
      exact (encodePacket_bounds hpacket).1

end Writers

section Startup

lemma size_div (h : 128≤n) : n.size = (n/128).size+7 := by
  have hdiv : 0<n/128 := Nat.div_pos h (by decide)
  have hpos := Nat.size_pos.2 hdiv
  apply le_antisymm
  · rw [Nat.size_le,Nat.pow_add]
    exact (Nat.div_lt_iff_lt_mul (by decide)).1 (Nat.lt_size_self (n/128))
  · have hlow : 2 ^ ((n/128).size-1) ≤ n/128 := Nat.lt_size.1 (Nat.sub_one_lt_of_lt hpos)
    have hn : 2 ^ ((n/128).size-1+7) ≤ n := by
      rw [Nat.pow_add]
      exact (Nat.le_div_iff_mul_le (by decide)).1 hlow
    have hlt := Nat.lt_size.2 hn
    omega

lemma length_putVaruint32 (h : n<2^32) : (putVaruint32 n).length=varuint32Len n := by
  have hwrite : ∀ room n, n<128 ^ (room+1) → (Leb.write room n).length = ((max n 1).size+6) / 7 := by
    intro room
    induction room with
    | zero =>
      intro n hn
      have hle : (max n 1).size≤7 := Nat.size_le.2 (by omega)
      have hpos : 0 < (max n 1).size := Nat.size_pos.2 (by omega)
      rw [Leb.write,length_singleton]
      omega
    | succ room ih =>
      intro n hn
      rw [Leb.write]
      split
      · have hle : (max n 1).size≤7 := Nat.size_le.2 (by omega)
        have hpos : 0 < (max n 1).size := Nat.size_pos.2 (by omega)
        rw [length_singleton]
        omega
      · have hdiv : n >>> 7=n/128 := Nat.shiftRight_eq_div_pow n 7
        rw [length_cons,ih _ (by rw [hdiv]; exact Nat.div_lt_of_lt_mul (by
          rwa [Nat.pow_succ'] at hn)),hdiv]
        have hle : 128≤n := by omega
        rw [max_eq_left (Nat.one_le_iff_ne_zero.2 (by omega)),max_eq_left (by omega), size_div hle]
        omega
  exact hwrite 4 n (h.trans (by decide))

lemma length_putEntry (h : packet.length<2^32) : (putEntry body packet).length =
    body.length + (varuint32Len packet.length+packet.length) := by
  rw [putEntry,length_append,length_append,length_putVaruint32 h]

structure WithinBounds (body : Bytes) (group : List Bytes) : Prop where
  frames : Frames body group
  nonempty : group ≠ []
  packets : group.length ≤ maxRawBatchPackets
  bytes : body.length ≤ maxSessionBatchBytes ∨ group.length=1

lemma Frames.putEntry (h : Frames body packets) (hlt : packet.length<2^32) :
    Frames (putEntry body packet) (packets ++ [packet]) := h.append (isEntry_put hlt).frames

/-- A batch under construction, and the packets left, become bodies within the bounds. -/
lemma groupPackets_groups {group : List Bytes} (hframes : Frames body group)
    (hcount : group.length ≤ maxRawBatchPackets)
    (hbytes : group ≠ [] → body.length ≤ maxSessionBatchBytes ∨ group.length=1)
    (h : ∀ packet ∈ packets, packet.length<2^32) :
    ∃ groups, groups.flatten=group++packets ∧
      List.Forall₂ WithinBounds (groupPackets body group.length packets) groups := by
  induction packets generalizing body group with
  | nil =>
    rw [groupPackets]
    split
    · rename_i hne
      have hne : group ≠ [] := fun hnil=>hne (length_eq_zero_iff.2 hnil)
      exact ⟨[group],by simp,.cons ⟨hframes,hne,hcount,hbytes hne⟩ .nil⟩
    · rename_i hzero
      rw [not_not,length_eq_zero_iff] at hzero
      exact ⟨[],by simp [hzero],.nil⟩
  | cons packet packets ih =>
    obtain ⟨hlt,hrest⟩ := forall_mem_cons.1 h
    rw [groupPackets]
    split
    · rename_i hfull
      have hne : group ≠ [] := fun hnil=>hfull.1 (length_eq_zero_iff.2 hnil)
      obtain ⟨groups,hgroups,hbodies⟩ := @ih (putEntry [] packet) [packet]
        (Frames.nil.putEntry hlt) (show 1 ≤ maxRawBatchPackets by decide) (fun _=>.inr rfl) hrest
      refine ⟨group::groups,?_,.cons ⟨hframes,hne,hcount,hbytes hne⟩ hbodies⟩
      rw [flatten_cons,hgroups]
      rfl
    · rename_i hroom
      obtain ⟨groups,hgroups,hbodies⟩ := @ih (putEntry body packet) (group ++ [packet]) (hframes.putEntry hlt) (by
          rw [length_append,length_singleton]
          by_cases hzero : group.length=0
          · rw [hzero]
            decide
          · omega) (fun _=>by
          rw [length_putEntry hlt,length_append,length_singleton]
          by_cases hzero : group.length=0
          · exact .inr (by rw [hzero])
          · exact .inl (Nat.not_lt.1 fun hlt=>hroom ⟨hzero,.inr hlt⟩)) hrest
      rw [length_append,length_singleton] at hbodies
      exact ⟨groups,by rw [hgroups,append_assoc,singleton_append],hbodies⟩

/-- The startup packets keep their order in bodies within the bounds. -/
lemma startupBatches_groups (h : ∀ packet ∈ packets, packet.length<2^32) :
    ∃ groups, groups.flatten=packets ∧ List.Forall₂ WithinBounds (startupBatches packets) groups :=
  groupPackets_groups Frames.nil (Nat.zero_le _) (fun h=>absurd rfl h) h

end Startup

section Sessions

variable {M T D P : Type}

lemma decodeHandoff_startup {json : Json M T D} {handoff : SessionHandoff M}
    (h : decodeHandoff json body = .ok handoff) :
    ∃ batch, splitBatch batch = .ok handoff.startup := by
  unfold decodeHandoff at h
  simp only [bind,Except.bind] at h
  split at h
  · cases h
  split at h
  · cases h
  split at h
  · cases h
  split at h
  · cases h
  split at h
  · cases h
  rename_i startup hsplit
  split at h
  · split at h
    · cases h
      exact ⟨_,hsplit⟩
    · cases h
  · cases h

/-- What is framed splits into its packets, only what is framed splits, and startup packets are
grouped within the bounds of one batch. -/
theorem session_batches_round_trip (json : Json M T D) (codec : Codec P) :
    (∀ packets : List Bytes, packets ≠ [] → (∀ packet ∈ packets, packet ≠ [] ∧ packet.length < 2^32) →
      ∃ body, encodeBatch packets = .ok (kindBatch :: body) ∧ splitBatch body = .ok packets ∧
        decodeCoreMessage json (kindBatch :: body) = .ok (.batch packets)) ∧
    (∀ sent : List (Packet P), (sent.filterMap (encodePacket codec) = [] → batchFrame codec sent=none) ∧
      (sent.filterMap (encodePacket codec) ≠ [] → ∃ body, batchFrame codec sent=some (kindBatch :: body) ∧
        splitBatch body = .ok (sent.filterMap (encodePacket codec)))) ∧
    (∀ body packets, splitBatch body = .ok packets ↔
      packets ≠ [] ∧ (∀ packet ∈ packets, packet ≠ []) ∧ Frames body packets) ∧
    (∀ packets : List Bytes, (∀ packet ∈ packets, packet.length < 2^32) → ∃ groups,
      groups.flatten=packets ∧ List.Forall₂ WithinBounds (startupBatches packets) groups) ∧
    (∀ body handoff, decodeHandoff json body = .ok handoff → ∃ groups, groups.flatten=handoff.startup ∧
      List.Forall₂ (fun batch group => WithinBounds batch group ∧ splitBatch batch = .ok group)
        (startupBatches handoff.startup) groups) := by
  refine ⟨?_,batchFrame_splits,fun _ _=>splitBatch_eq_ok,fun _=>startupBatches_groups,?_⟩
  · intro packets hne h
    obtain ⟨body,hframe,hsplit⟩ := encodeBatch_splits hne h
    refine ⟨body,hframe,hsplit,?_⟩
    have hdecode : decodeCoreMessage json (kindBatch :: body) = .batch <$> splitBatch body := rfl
    rw [hdecode,hsplit]
    rfl
  · intro body handoff h
    obtain ⟨batch,hsplit⟩ := decodeHandoff_startup h
    obtain ⟨-,hne,hframes⟩ := splitBatch_eq_ok.1 hsplit
    obtain ⟨groups,hgroups,hbodies⟩ := startupBatches_groups fun _=>hframes.length_lt
    refine ⟨groups,hgroups,forall₂_iff_zip.2 ⟨hbodies.length_eq,fun hmem => ?_⟩⟩
    have hwithin := (forall₂_iff_zip.1 hbodies).2 hmem
    refine ⟨hwithin,splitBatch_eq_ok.2 ⟨hwithin.nonempty,fun packet hpacket => hne packet ?_, hwithin.frames⟩⟩
    rw [← hgroups]
    exact mem_flatten_of_mem (of_mem_zip hmem).2 hpacket

/-- A body may frame no packet, or an empty one; neither splits. -/
theorem empty_batches_do_not_split : (Frames [] [] ∧ splitBatch [] = .error (invalid "empty batch")) ∧
    Frames [0] [[]] ∧ splitBatch [0] = .error (invalid "batch packet length") := by
  have hzero : Leb.Holds [0] ([] : Bytes).length := .last (by decide)
  refine ⟨⟨Frames.nil,by decide⟩,IsEntry.frames ⟨[0],hzero,by decide,by decide,rfl⟩,?_⟩
  decide

end Sessions

end Cinnabar.SessionWire
