import Mathlib

/-! # Maps as lists of entries -/

namespace Cinnabar

open List

/-- A finite map. -/
structure Entries (K V : Type) where
  toList : List (K × V)
  nodup : (toList.map Prod.fst).Nodup

namespace Entries

variable {K V : Type}

def empty : Entries K V := ⟨[],nodup_nil⟩

def keys (m : Entries K V) : List K := m.toList.map Prod.fst

def length (m : Entries K V) : ℕ := m.toList.length

def isEmpty (m : Entries K V) : Bool := m.toList.isEmpty

/-- Keeps the entries whose keys pass a test. -/
def retain (p : K → Bool) (m : Entries K V) : Entries K V :=
  ⟨m.toList.filter fun entry=>p entry.1,m.nodup.sublist (filter_sublist.map Prod.fst)⟩

def mapValues (f : K → V → V) (m : Entries K V) : Entries K V where
  toList := m.toList.map fun entry=>(entry.1,f entry.1 entry.2)
  nodup := by
    rw [map_map]
    exact m.nodup

def weight (w : V → ℕ) (m : Entries K V) : ℕ := (m.toList.map fun entry=>w entry.2).sum

variable {m m' : Entries K V} {k q : K} {v : V} {w : V → ℕ} {p : K → Bool}

lemma length_eq_weight (m : Entries K V) : m.length=m.weight fun _=>1 := by
  simp [length,weight]

lemma weight_retain (p : K → Bool) (m : Entries K V) (w : V → ℕ) :
    (m.retain p).weight w + (m.retain fun k=>!p k).weight w=m.weight w := by
  obtain ⟨entries,hnodup⟩ := m
  unfold weight retain
  dsimp only
  clear hnodup
  induction entries with
  | nil => rfl
  | cons entry entries ih =>
    cases hp : p entry.1 <;> simp [hp] <;> omega

lemma weight_mapValues {f : K → V → V} (h : ∀ entry ∈ m.toList, w (f entry.1 entry.2) = w entry.2) :
    (m.mapValues f).weight w=m.weight w := by
  unfold weight mapValues
  rw [map_map]
  exact congrArg List.sum (map_congr_left h)

lemma keys_mapValues (f : K → V → V) (m : Entries K V) : (m.mapValues f).keys=m.keys := by
  unfold keys mapValues
  rw [map_map]
  rfl

lemma mem_keys_retain : k ∈ (m.retain p).keys ↔ k ∈ m.keys ∧ p k=true := by
  unfold keys retain
  simp only [mem_map,mem_filter]
  constructor
  · rintro ⟨entry,⟨hmem,hp⟩,rfl⟩
    exact ⟨⟨entry,hmem,rfl⟩,hp⟩
  · rintro ⟨⟨entry,hmem,rfl⟩,hp⟩
    exact ⟨entry,⟨hmem,hp⟩,rfl⟩

lemma isEmpty_iff : m.isEmpty=true ↔ m.keys = [] := by
  rw [isEmpty,List.isEmpty_iff,keys,map_eq_nil_iff]

variable [DecidableEq K]

def find (m : Entries K V) (k : K) : Option V :=
  (m.toList.find? fun entry=>entry.1=k).map Prod.snd

def erase (k : K) (m : Entries K V) : Entries K V := m.retain (· ≠ k)

lemma mem_keys_erase : q ∈ (m.erase k).keys ↔ q ∈ m.keys ∧ q≠k := by
  rw [erase,mem_keys_retain,decide_eq_true_eq]

def insert (k : K) (v : V) (m : Entries K V) : Entries K V where
  toList := (m.erase k).toList ++ [(k,v)]
  nodup := by
    rw [map_append,map_singleton]
    refine List.Nodup.append (m.erase k).nodup (nodup_singleton k) ?_
    rw [disjoint_singleton]
    exact fun hmem=>(mem_keys_erase.1 hmem).2 rfl

def extend (m m' : Entries K V) : Entries K V :=
  m'.toList.foldl (fun m entry=>m.insert entry.1 entry.2) m

lemma mem_keys_insert : q ∈ (m.insert k v).keys ↔ q ∈ m.keys ∨ q=k := by
  unfold keys insert
  rw [map_append,mem_append,map_singleton,mem_singleton]
  have herase : q ∈ (m.erase k).toList.map Prod.fst ↔ q ∈ m.keys ∧ q≠k := mem_keys_erase
  rw [herase]
  tauto

lemma weight_insert : (m.insert k v).weight w = (m.erase k).weight w+w v := by
  simp [weight,insert]

lemma find_eq_none : m.find k=none ↔ k ∉ m.keys := by
  unfold find keys
  rw [Option.map_eq_none_iff,List.find?_eq_none]
  simp only [decide_eq_true_eq,mem_map,not_exists,not_and]

lemma find_erase : (m.erase k).find q = if q=k then none else m.find q := by
  by_cases heq : q=k
  · rw [if_pos heq,find_eq_none,mem_keys_erase]
    exact fun h=>h.2 heq
  · rw [if_neg heq]
    unfold find erase retain
    rw [List.find?_filter]
    congr 1
    refine List.find?_congr fun entry _=>?_
    by_cases hentry : entry.1=q
    · simp [hentry,heq]
    · simp [hentry]

lemma find_insert : (m.insert k v).find q = if q=k then some v else m.find q := by
  unfold insert
  by_cases heq : q=k
  · have herased : (m.erase k).find q=none := by rw [find_erase,if_pos heq]
    unfold find at herased ⊢
    rw [Option.map_eq_none_iff] at herased
    rw [List.find?_append,herased]
    simp [heq]
  · rw [if_neg heq]
    have herased : (m.erase k).find q=m.find q := by rw [find_erase,if_neg heq]
    rw [← herased]
    unfold find
    simp [Ne.symm heq]

lemma erase_absent (h : k ∉ m.keys) : (m.erase k).toList=m.toList :=
  filter_eq_self.2 fun _ hmem =>
    decide_eq_true fun heq=>h (heq ▸ mem_map_of_mem hmem)

/-- The value at a key, and the others. -/
lemma weight_erase : (m.erase k).weight w + (m.find k).elim 0 w=m.weight w := by
  obtain ⟨entries,hnodup⟩ := m
  unfold weight erase retain find
  dsimp only
  induction entries with
  | nil => rfl
  | cons entry entries ih =>
    rw [map_cons,nodup_cons] at hnodup
    by_cases heq : entry.1=k
    · have hothers : entries.filter (fun entry=>decide (entry.1≠k)) = entries :=
        filter_eq_self.2 fun other hmem=>decide_eq_true fun hother =>
          hnodup.1 (heq ▸ hother ▸ mem_map_of_mem hmem)
      rw [filter_cons_of_neg (by simp [heq]),List.find?_cons_of_pos (by simp [heq]),hothers]
      simp [add_comm]
    · rw [filter_cons_of_pos (by simp [heq]),List.find?_cons_of_neg (by simp [heq]),
        map_cons,map_cons,sum_cons,sum_cons,← ih hnodup.2]
      omega

lemma weight_insert_add : (m.insert k v).weight w + (m.find k).elim 0 w=m.weight w+w v := by
  have herase : (m.erase k).weight w + (m.find k).elim 0 w=m.weight w := weight_erase
  rw [weight_insert]
  omega

lemma weight_extend (h : ∀ k ∈ m'.keys, k ∉ m.keys) : (m.extend m').weight w=m.weight w+m'.weight w := by
  obtain ⟨entries,hnodup⟩ := m'
  unfold extend
  induction entries generalizing m with
  | nil => rfl
  | cons entry entries ih =>
    rw [map_cons,nodup_cons] at hnodup
    have habsent : entry.1 ∉ m.keys := h entry.1 (.head _)
    rw [foldl_cons,ih hnodup.2,weight_insert]
    · have hsame : (m.erase entry.1).weight w=m.weight w := by
        rw [weight,erase_absent habsent]
        rfl
      rw [hsame]
      simp [weight,add_assoc]
    · intro k hmem hinserted
      rcases mem_keys_insert.1 hinserted with hold | rfl
      · exact h k (.tail _ hmem) hold
      · exact hnodup.1 hmem

lemma mem_keys_extend : q ∈ (m.extend m').keys ↔ q ∈ m.keys ∨ q ∈ m'.keys := by
  obtain ⟨entries,hnodup⟩ := m'
  unfold extend
  induction entries generalizing m with
  | nil => simp [keys]
  | cons entry entries ih =>
    rw [map_cons,nodup_cons] at hnodup
    rw [foldl_cons,ih hnodup.2,mem_keys_insert]
    simp [keys,or_assoc]

lemma find_eq_some : m.find k=some v ↔ (k,v) ∈ m.toList := by
  unfold find
  rw [Option.map_eq_some_iff]
  constructor
  · rintro ⟨entry,hfind,rfl⟩
    obtain rfl : entry.1=k := by simpa using find?_some hfind
    exact mem_of_find?_eq_some hfind
  · intro hmem
    cases hfind : m.toList.find? fun entry=>entry.1=k with
    | none => exact absurd (find?_eq_none.1 hfind _ hmem) (by simp)
    | some entry =>
      exact ⟨entry,rfl,congrArg Prod.snd (inj_on_of_nodup_map m.nodup (mem_of_find?_eq_some hfind) hmem
        (by simpa using find?_some hfind) : entry=(k,v))⟩

end Entries

end Cinnabar
