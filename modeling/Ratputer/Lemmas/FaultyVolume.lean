import Ratputer.FaultyVolume
import Ratputer.Lib.Effect

/-!
# What a failing rewrite leaves of a file

`Kept` is what every card write before the commit keeps: the directory entry, and octets that are the old ones or the new ones,
each at its place. `Writing` adds where the writer stands. Each call of the writer has one lemma, from the sector write up.
-/

namespace Ratputer.Faulty

open Effect

namespace Volume

/-- A volume with a file on it: the chain is made of whole clusters and holds as much as the entry says. -/
structure Sound (v : Volume) : Prop where
  cluster_pos : 0 < v.clusterSize
  aligned : v.clusterSize ∣ v.chain.length
  named : v.entryCluster = true → v.size ≤ v.chain.length ∧ 0 < v.chain.length
  unnamed : v.entryCluster = false → v.size = 0
  endMarked : v.endMarked = true

/-- The clusters that the directory entry leads to. -/
def old (v : Volume) : List UInt8 := if v.entryCluster then v.chain else []

/-- Two volumes that show the same file. -/
structure SameFile (v v' : Volume) : Prop where
  clusterSize : v'.clusterSize = v.clusterSize
  chain : v'.chain = v.chain
  entryCluster : v'.entryCluster = v.entryCluster
  endMarked : v'.endMarked = v.endMarked
  size : v'.size = v.size

theorem SameFile.refl (v : Volume) : SameFile v v := ⟨rfl, rfl, rfl, rfl, rfl⟩

theorem SameFile.trans {v v' v'' : Volume} (h : SameFile v v') (h' : SameFile v' v'') : SameFile v v'' :=
  ⟨h'.clusterSize.trans h.clusterSize, h'.chain.trans h.chain, h'.entryCluster.trans h.entryCluster,
    h'.endMarked.trans h.endMarked, h'.size.trans h.size⟩

/-- The entry is the one of `v₀`, and each octet that it reaches is the old one or the new one of its place. -/
structure Kept (v₀ : Volume) (bytes : List UInt8) (v : Volume) : Prop where
  clusterSize : v.clusterSize = v₀.clusterSize
  entryCluster : v.entryCluster = v₀.entryCluster
  size : v.size = v₀.size
  endMarked : v.endMarked = true
  length : v₀.old.length ≤ v.chain.length
  octets : ∀ i < v₀.old.length, v.chain[i]? = v₀.old[i]? ∨ i < bytes.length ∧ v.chain[i]? = bytes[i]?

theorem Kept.congr {v₀ v v' : Volume} {bytes : List UInt8} (h : Kept v₀ bytes v) (hs : SameFile v v') : Kept v₀ bytes v' := by
  obtain ⟨h1, h2, h3, h4, h5⟩ := hs
  refine ⟨h1.trans h.clusterSize, h3.trans h.entryCluster, h5.trans h.size, h4.trans h.endMarked, ?_, ?_⟩
  · rw [h2]
    exact h.length
  · rw [h2]
    exact h.octets

/-- Ending the chain behind the old clusters keeps the file. -/
theorem Kept.endedAt {v₀ v : Volume} {bytes : List UInt8} (h : Kept v₀ bytes v) {cluster : Nat}
    (hc : v₀.old.length ≤ (cluster + 1) * v.clusterSize) : Kept v₀ bytes (v.endedAt cluster) := by
  refine ⟨h.clusterSize, h.entryCluster, h.size, h.endMarked, ?_, fun i hi => ?_⟩
  · show v₀.old.length ≤ (v.chain.take _).length
    rw [List.length_take]
    exact le_min hc h.length
  · show (v.chain.take _)[i]? = _ ∨ _ ∧ (v.chain.take _)[i]? = _
    rw [List.getElem?_take_of_lt (by omega)]
    exact h.octets i hi

/-- Linking a cluster to the chain keeps the file. -/
theorem Kept.linked {v₀ v : Volume} {bytes : List UInt8} (h : Kept v₀ bytes v) : Kept v₀ bytes v.linked := by
  have hlen := h.length
  refine ⟨h.clusterSize, h.entryCluster, h.size, h.endMarked, ?_, fun i hi => ?_⟩
  · show _ ≤ (v.chain ++ v.claimed).length
    rw [List.length_append]
    omega
  · show (v.chain ++ v.claimed)[i]? = _ ∨ _ ∧ (v.chain ++ v.claimed)[i]? = _
    rw [List.getElem?_append_left (by omega)]
    exact h.octets i hi

end Volume

open Volume

/-! ## Card writes -/

theorem ends_cardWrite {whole : Volume → Volume} {part : (Nat → Bool) → Volume → Volume} {v : Volume}
    {Q : Unit → Volume → Prop} {E : FatError → Volume → Prop} (hQ : Q () (whole { v with writes := v.writes + 1 }))
    (hE : ∀ reached e, E e (part reached { v with writes := v.writes + 1 })) : Ends (cardWrite whole part) v Q E := by
  unfold Ends cardWrite
  split <;> rename_i h
  · split at h
    · injection h with h1 h2
      rw [← h2]
      exact hQ
    · nomatch h
  · split at h
    · nomatch h
    · injection h with h1 h2
      rw [← h2]
      exact hE _ _

/-- A sector write either has its effect or has none. -/
theorem ends_sectorWrite {effect : Volume → Volume} {v : Volume} {Q : Unit → Volume → Prop}
    {E : FatError → Volume → Prop} (hQ : Q () (effect { v with writes := v.writes + 1 }))
    (hnone : ∀ e, E e { v with writes := v.writes + 1 }) (hsome : ∀ e, E e (effect { v with writes := v.writes + 1 })) :
    Ends (sectorWrite effect) v Q E := by
  refine ends_cardWrite hQ fun reached e => ?_
  split
  · exact hsome e
  · exact hnone e

/-- Freed clusters that the chain does not reach change nothing of the file. -/
theorem freeClusters_same (count : Nat) (v : Volume) :
    Ends (freeClusters count) v (fun _ v' => SameFile v v') fun _ v' => SameFile v v' := by
  induction count generalizing v with
  | zero => exact ends_pure (.refl v)
  | succ count ih =>
    unfold freeClusters
    refine ends_bind (ends_sectorWrite ?_ (fun _ => ⟨rfl, rfl, rfl, rfl, rfl⟩) fun _ => ⟨rfl, rfl, rfl, rfl, rfl⟩)
    refine (ih _).mono (fun _ _ h => ?_) fun _ _ h => ?_
    · exact ⟨h.1, h.2, h.3, h.4, h.5⟩
    · exact ⟨h.1, h.2, h.3, h.4, h.5⟩

theorem writeFsinfo_same (v : Volume) :
    Ends writeFsinfo v (fun _ v' => SameFile v v') fun _ v' => SameFile v v' :=
  ends_sectorWrite ⟨rfl, rfl, rfl, rfl, rfl⟩ (fun _ => ⟨rfl, rfl, rfl, rfl, rfl⟩) fun _ => ⟨rfl, rfl, rfl, rfl, rfl⟩

theorem ends_get {v : Volume} {Q : Volume → Volume → Prop} {E : FatError → Volume → Prop} (h : Q v v) :
    Ends (get : FatM Volume Volume) v Q E := h

theorem ends_modify {f : Volume → Volume} {v : Volume} {Q : PUnit → Volume → Prop} {E : FatError → Volume → Prop}
    (h : Q ⟨⟩ (f v)) : Ends (modify f : FatM Volume PUnit) v Q E := h

/-- The rule for a call with a cleanup. -/
theorem ends_orElse {α : Type} {call : FatM Volume α} {cleanup : FatM Volume Unit} {v : Volume}
    {Q : α → Volume → Prop} {E : FatError → Volume → Prop}
    (h : Ends call v Q fun _ v' => Ends cleanup v' (fun _ v'' => ∀ e, E e v'') E) : Ends (orElse call cleanup) v Q E := by
  unfold Ends at h
  unfold Ends orElse
  cases hm : call v with
  | ok a v' =>
    rw [hm] at h
    exact h
  | error e v' =>
    rw [hm] at h
    have h : Ends cleanup v' (fun _ v'' => ∀ e, E e v'') E := h
    exact Effect.ends_bind (F := Q) (h.mono (fun _ _ hall => ends_throw (hall e)) fun _ _ h => h)

/-! ## The writer -/

/-- Where a rollback would end the chain: behind the old clusters. -/
def Writer.Returns (w : Writer) (v₀ v : Volume) : Prop :=
  w.firstAllocatedCluster.isSome = true →
    match w.allocationPredecessor with
    | some previous => v₀.old.length ≤ (previous + 1) * v.clusterSize
    | none => v₀.old.length = 0

/-- The writer has put its octets over the front of the chain, and the rest of the old clusters is as it was. -/
structure Writing (v₀ : Volume) (bytes : List UInt8) (v : Volume) (w : Writer) : Prop where
  clusterSize : v.clusterSize = v₀.clusterSize
  entryCluster : v.entryCluster = v₀.entryCluster
  size : v.size = v₀.size
  endMarked : v.endMarked = true
  cluster_pos : 0 < v.clusterSize
  aligned : v.clusterSize ∣ v.chain.length
  length : v₀.old.length ≤ v.chain.length
  total_le : w.totalWritten ≤ bytes.length
  front : ∀ i < w.totalWritten, v.chain[i]? = bytes[i]?
  back : ∀ i < v₀.old.length, w.totalWritten ≤ i → v.chain[i]? = v₀.old[i]?
  fresh : w.currentCluster = none → w.totalWritten = 0 ∧ v₀.old.length = 0 ∧ w.firstAllocatedCluster = none
  place : ∀ cluster, w.currentCluster = some cluster → cluster * v.clusterSize + w.offsetInCluster = w.totalWritten ∧
    w.offsetInCluster ≤ v.clusterSize ∧ (cluster + 1) * v.clusterSize ≤ v.chain.length ∧ w.firstCluster = true
  returns : w.Returns v₀ v
  preserveLen : w.preserveLen = 0

namespace Writing

variable {v₀ v v' : Volume} {bytes : List UInt8} {w : Writer}

theorem kept (h : Writing v₀ bytes v w) : Kept v₀ bytes v := by
  refine ⟨h.clusterSize, h.entryCluster, h.size, h.endMarked, h.length, fun i hi => ?_⟩
  by_cases hw : i < w.totalWritten
  · exact Or.inr ⟨lt_of_lt_of_le hw h.total_le, h.front i hw⟩
  · exact Or.inl (h.back i hi (by omega))

theorem congr (h : Writing v₀ bytes v w) (hs : SameFile v v') : Writing v₀ bytes v' w := by
  obtain ⟨h1, h2, h3, h4, h5⟩ := hs
  have hreturns := h.returns
  refine ⟨h1.trans h.clusterSize, h3.trans h.entryCluster, h5.trans h.size, h4.trans h.endMarked, ?_, ?_, ?_,
    h.total_le, ?_, ?_, h.fresh, ?_, ?_, h.preserveLen⟩
  · rw [h1]
    exact h.cluster_pos
  · rw [h1, h2]
    exact h.aligned
  · rw [h2]
    exact h.length
  · rw [h2]
    exact h.front
  · rw [h2]
    exact h.back
  · rw [h1, h2]
    exact h.place
  · unfold Writer.Returns at hreturns ⊢
    rw [h1]
    exact hreturns

end Writing

/-- A rollback keeps the file. -/
theorem rollback_kept {v₀ v : Volume} {bytes : List UInt8} {w : Writer} (h : Kept v₀ bytes v) (hr : w.Returns v₀ v) :
    Ends (rollbackAllocatedClusters w) v (fun _ v' => Kept v₀ bytes v') fun _ v' => Kept v₀ bytes v' := by
  have hfree : ∀ (count : Nat) v, Kept v₀ bytes v → Ends (do freeClusters count; writeFsinfo) v
      (fun _ v' => Kept v₀ bytes v') fun _ v' => Kept v₀ bytes v' := by
    intro count v hk
    refine ends_bind ((freeClusters_same count v).mono (fun _ v' hs => ?_) fun _ _ hs => hk.congr hs)
    exact (writeFsinfo_same v').mono (fun _ _ hs' => (hk.congr hs).congr hs') fun _ _ hs' => (hk.congr hs).congr hs'
  unfold rollbackAllocatedClusters
  unfold Writer.Returns at hr
  rcases hf : w.firstAllocatedCluster with _ | first
  · exact ends_pure h
  · have hr := hr (by rw [hf]; rfl)
    refine ends_bind (ends_get ?_)
    dsimp only
    rcases hp : w.allocationPredecessor with _ | previous
    · rw [hp] at hr
      refine ends_bind (ends_modify (hfree _ _ ?_))
      exact ⟨h.clusterSize, h.entryCluster, h.size, h.endMarked, by rw [hr]; exact Nat.zero_le _,
        fun i hi => absurd hi (by omega)⟩
    · rw [hp] at hr
      have hsame : Kept v₀ bytes { v with writes := v.writes + 1 } := h.congr ⟨rfl, rfl, rfl, rfl, rfl⟩
      have hended : Kept v₀ bytes (Volume.endedAt { v with writes := v.writes + 1 } previous) := hsame.endedAt hr
      exact ends_bind (ends_sectorWrite (hfree _ _ hended) (fun _ => hsame) fun _ => hended)

/-- Claiming a free cluster changes nothing of the file. -/
theorem allocateCluster_same (v : Volume) :
    Ends allocateCluster v (fun _ v' => SameFile v v') fun _ v' => SameFile v v' := by
  unfold allocateCluster
  refine ends_bind (ends_get ?_)
  split
  · exact ends_throw (.refl v)
  · exact ends_sectorWrite ⟨rfl, rfl, rfl, rfl, rfl⟩ (fun _ => ⟨rfl, rfl, rfl, rfl, rfl⟩) fun _ => ⟨rfl, rfl, rfl, rfl, rfl⟩

@[simp] theorem length_claimed (v : Volume) : v.claimed.length = v.clusterSize := by simp [Volume.claimed]

/-- The parts of an extended writer. -/
theorem extended_spec (w : Writer) (added : Nat) :
    (w.extended added).firstCluster = true ∧ (w.extended added).currentCluster = some added ∧
      (w.extended added).offsetInCluster = 0 ∧ (w.extended added).totalWritten = w.totalWritten ∧
      (w.extended added).preserveLen = w.preserveLen ∧
      (w.extended added).allocationPredecessor =
        if w.firstAllocatedCluster.isNone then w.currentCluster else w.allocationPredecessor := by
  unfold Writer.extended
  dsimp only
  split_ifs <;> exact ⟨rfl, rfl, rfl, rfl, rfl, rfl⟩

/-- The chain of a writer at its end, with a cluster linked to it. -/
theorem writing_linked {v₀ v : Volume} {bytes : List UInt8} {w : Writer} (h : Writing v₀ bytes v w) {cluster : Nat}
    (hc : w.currentCluster = some cluster) (hend : v.chain.length = w.totalWritten) :
    Writing v₀ bytes v.linked (w.extended (cluster + 1)) := by
  obtain ⟨he1, he2, he3, he4, he5, he6⟩ := extended_spec w (cluster + 1)
  obtain ⟨hp1, hp2, hp3, -⟩ := h.place cluster hc
  have hlen : v.linked.chain.length = v.chain.length + v.clusterSize := by
    show (v.chain ++ v.claimed).length = _
    rw [List.length_append, length_claimed]
  have hleft : ∀ i < v.chain.length, v.linked.chain[i]? = v.chain[i]? := fun i hi => List.getElem?_append_left hi
  have hlength := h.length
  have hnext : (cluster + 1) * v.clusterSize = v.chain.length := by
    rw [Nat.add_mul] at hp3 ⊢
    omega
  refine ⟨h.clusterSize, h.entryCluster, h.size, h.endMarked, h.cluster_pos, ?_, by omega, by rw [he4]; exact h.total_le, ?_, ?_,
    fun hn => absurd (he2.symm.trans hn) nofun, ?_, fun _ => ?_, he5.trans h.preserveLen⟩
  · rw [hlen]
    exact Nat.dvd_add h.aligned (Nat.dvd_refl _)
  · intro i hi
    rw [he4] at hi
    rw [hleft i (by omega)]
    exact h.front i hi
  · intro i hi hw
    rw [he4] at hw
    omega
  · intro c hc'
    obtain rfl := Option.some.inj (he2.symm.trans hc')
    refine ⟨?_, ?_, ?_, he1⟩
    · rw [he3, he4]
      show (cluster + 1) * v.clusterSize + 0 = _
      omega
    · rw [he3]
      exact Nat.zero_le _
    · rw [hlen]
      show (cluster + 1 + 1) * v.clusterSize ≤ _
      rw [Nat.add_mul, hnext]
      omega
  · rw [he6]
    have hreturns := h.returns
    unfold Writer.Returns at hreturns
    rcases hf : w.firstAllocatedCluster with _ | first
    · rw [Option.isNone_none, if_pos rfl, hc]
      show _ ≤ (cluster + 1) * v.clusterSize
      omega
    · rw [Option.isNone_some, if_neg Bool.false_ne_true]
      exact hreturns (by rw [hf]; rfl)

/-- The first cluster of a file that had none. -/
theorem writing_claimed {v₀ v : Volume} {bytes : List UInt8} {w : Writer} (h : Writing v₀ bytes v w)
    (hc : w.currentCluster = none) :
    Writing v₀ bytes { v with chain := v.claimed, endMarked := true } (w.extended 0) := by
  obtain ⟨he1, he2, he3, he4, he5, he6⟩ := extended_spec w 0
  obtain ⟨ht, hold, hfirst⟩ := h.fresh hc
  refine ⟨h.clusterSize, h.entryCluster, h.size, rfl, h.cluster_pos, ?_, ?_, by rw [he4]; exact h.total_le, ?_, ?_,
    fun hn => absurd (he2.symm.trans hn) nofun, ?_, fun _ => ?_, he5.trans h.preserveLen⟩
  · exact (length_claimed v).symm ▸ Nat.dvd_refl v.clusterSize
  · rw [hold]
    exact Nat.zero_le _
  · intro i hi
    rw [he4, ht] at hi
    exact absurd hi (Nat.not_lt_zero i)
  · intro i hi
    omega
  · intro c hc'
    obtain rfl := Option.some.inj (he2.symm.trans hc')
    rw [he3, he4, ht]
    refine ⟨by omega, Nat.zero_le _, ?_, he1⟩
    show (0 + 1) * v.clusterSize ≤ v.claimed.length
    rw [length_claimed]
    omega
  · rw [he6, hfirst, Option.isNone_none, if_pos rfl, hc]
    exact hold

/-- Taking back a link that failed keeps the file. -/
theorem unlink_kept {v₀ v : Volume} {bytes : List UInt8} {w : Writer} {previous : Nat} (h : Kept v₀ bytes v)
    (hr : w.Returns v₀ v) (hp : v₀.old.length ≤ (previous + 1) * v.clusterSize) :
    Ends (do
        sectorWrite (·.endedAt previous)
        freeClusters 1
        if w.firstAllocatedCluster.isSome then rollbackAllocatedClusters w else writeFsinfo) v
      (fun _ v' => Kept v₀ bytes v') fun _ v' => Kept v₀ bytes v' := by
  have hsame : Kept v₀ bytes { v with writes := v.writes + 1 } := h.congr ⟨rfl, rfl, rfl, rfl, rfl⟩
  have hended : Kept v₀ bytes (Volume.endedAt { v with writes := v.writes + 1 } previous) := hsame.endedAt hp
  refine ends_bind (ends_sectorWrite ?_ (fun _ => hsame) fun _ => hended)
  refine ends_bind ((freeClusters_same 1 _).mono (fun _ v' hs => ?_) fun _ _ hs => hended.congr hs)
  have hreturns : w.Returns v₀ v' := by
    unfold Writer.Returns at hr ⊢
    rw [hs.clusterSize]
    exact hr
  split
  · exact rollback_kept (hended.congr hs) hreturns
  · exact (writeFsinfo_same v').mono (fun _ _ hs' => (hended.congr hs).congr hs') fun _ _ hs' =>
      (hended.congr hs).congr hs'

/-- Adding a cluster where the chain has ended: the writer moves to it, or the file is kept. -/
theorem extendChain_spec {v₀ v : Volume} {bytes : List UInt8} {w : Writer} (h : Writing v₀ bytes v w)
    (hend : ∀ cluster, w.currentCluster = some cluster → v.chain.length = w.totalWritten) :
    Ends (extendChain w) v
      (fun w' v' => Writing v₀ bytes v' w' ∧ w'.totalWritten = w.totalWritten ∧ w'.currentCluster ≠ none ∧
        w'.offsetInCluster < v'.clusterSize)
      fun _ v' => Kept v₀ bytes v' := by
  have hcleanup : ∀ v', Writing v₀ bytes v' w → Ends (rollbackAllocatedClusters w) v'
      (fun _ v'' => ∀ _ : FatError, Kept v₀ bytes v'') fun _ v'' => Kept v₀ bytes v'' := by
    intro v' hv'
    exact (rollback_kept hv'.kept hv'.returns).mono (fun _ _ hk _ => hk) fun _ _ hk => hk
  unfold extendChain
  refine ends_bind (ends_orElse ((allocateCluster_same v).mono (fun _ v₁ hs => ?_) fun _ v₁ hs =>
    hcleanup v₁ (h.congr hs)))
  have h₁ := h.congr hs
  have hend₁ : ∀ cluster, w.currentCluster = some cluster → v₁.chain.length = w.totalWritten := by
    rw [hs.chain]
    exact hend
  rcases hc : w.currentCluster with _ | previous
  · refine ends_bind (ends_modify (ends_pure ?_))
    obtain ⟨-, he2, he3, he4, -, -⟩ := extended_spec w 0
    refine ⟨writing_claimed h₁ hc, he4, ?_, ?_⟩
    · simp only [Option.elim_none, he2]
      exact nofun
    · simp only [Option.elim_none, he3]
      exact h₁.cluster_pos
  · have h₂ : Writing v₀ bytes { v₁ with writes := v₁.writes + 1 } w := h₁.congr ⟨rfl, rfl, rfl, rfl, rfl⟩
    have hlinked := writing_linked h₂ hc (hend₁ previous hc)
    have hbehind : v₀.old.length ≤ (previous + 1) * v₁.clusterSize := by
      obtain ⟨hp1, hp2, hp3, -⟩ := h₁.place previous hc
      have := h₁.length
      have := hend₁ previous hc
      rw [Nat.add_mul] at hp3 ⊢
      omega
    refine ends_bind (ends_orElse (ends_sectorWrite (ends_pure ?_) (fun _ => ?_) fun _ => ?_))
    · obtain ⟨-, he2, he3, he4, -, -⟩ := extended_spec w (previous + 1)
      simp only [Option.elim_some]
      refine ⟨hlinked, he4, ?_, ?_⟩
      · rw [he2]
        exact nofun
      · rw [he3]
        exact h₁.cluster_pos
    · exact (unlink_kept h₂.kept h₂.returns hbehind).mono (fun _ _ hk _ => hk) fun _ _ hk => hk
    · exact (unlink_kept h₂.kept.linked h₂.returns hbehind).mono (fun _ _ hk _ => hk) fun _ _ hk => hk

/-- Making room: the writer stands inside a cluster, or the file is kept. -/
theorem makeRoom_spec {v₀ v : Volume} {bytes : List UInt8} {w : Writer} (h : Writing v₀ bytes v w) :
    Ends (makeRoom w) v
      (fun w' v' => Writing v₀ bytes v' w' ∧ w'.totalWritten = w.totalWritten ∧ w'.currentCluster ≠ none ∧
        w'.offsetInCluster < v'.clusterSize)
      fun _ v' => Kept v₀ bytes v' := by
  unfold makeRoom
  refine ends_bind (ends_get ?_)
  split
  · rename_i hroom
    rcases hc : w.currentCluster with _ | cluster
    · exact extendChain_spec h fun cluster hc' => absurd (hc.symm.trans hc') nofun
    · obtain ⟨hp1, hp2, hp3, -⟩ := h.place cluster hc
      have hoffset : w.offsetInCluster = v.clusterSize := by
        rw [hc] at hroom
        have := hroom.resolve_left (by simp)
        omega
      have htotal : (cluster + 1) * v.clusterSize = w.totalWritten := by
        rw [Nat.add_mul]
        omega
      rw [Option.bind_some]
      unfold Volume.nextCluster
      by_cases hnext : (cluster + 1) * v.clusterSize < v.chain.length
      · rw [if_pos hnext]
        refine ends_pure ⟨?_, rfl, nofun, h.cluster_pos⟩
        refine ⟨h.clusterSize, h.entryCluster, h.size, h.endMarked, h.cluster_pos, h.aligned, h.length, h.total_le,
          h.front, h.back, nofun, ?_, h.returns, h.preserveLen⟩
        intro c hc'
        obtain rfl := Option.some.inj hc'
        refine ⟨htotal, Nat.zero_le _, ?_, rfl⟩
        -- whole clusters: behind this one there is another
        obtain ⟨count, hcount⟩ := h.aligned
        rw [hcount, Nat.mul_comm v.clusterSize] at hnext ⊢
        exact Nat.mul_le_mul_right _ (Nat.lt_of_mul_lt_mul_right hnext)
      · rw [if_neg hnext]
        refine extendChain_spec h fun c hc' => ?_
        omega
  · rename_i hroom
    rw [not_or, Option.isNone_iff_eq_none, not_le] at hroom
    exact ends_pure ⟨h, rfl, hroom.1, hroom.2⟩

/-! ## The payload -/

theorem length_overwrite {octets : List UInt8} {place : Nat} {data : List UInt8}
    (h : place + data.length ≤ octets.length) : (overwrite octets place data).length = octets.length := by
  unfold overwrite
  rw [List.length_append, List.length_append, List.length_take, List.length_drop]
  omega

/-- The octets after an overwrite. -/
theorem getElem?_overwrite {octets : List UInt8} {place : Nat} {data : List UInt8}
    (h : place + data.length ≤ octets.length) (i : Nat) :
    (overwrite octets place data)[i]? =
      if place ≤ i ∧ i < place + data.length then data[i - place]? else octets[i]? := by
  have htake : (octets.take place).length = place := by
    rw [List.length_take]
    omega
  unfold overwrite
  by_cases h1 : i < place
  · rw [if_neg (by omega), List.append_assoc, List.getElem?_append_left (by omega), List.getElem?_take_of_lt h1]
  · by_cases h2 : i < place + data.length
    · rw [if_pos ⟨by omega, h2⟩, List.append_assoc, List.getElem?_append_right (by omega), htake,
        List.getElem?_append_left (by omega)]
    · rw [if_neg (by omega), List.getElem?_append_right (by rw [List.length_append]; omega), List.getElem?_drop,
        List.length_append, htake]
      congr 1
      omega

theorem length_reachedData (reached : Nat → Bool) (octets : List UInt8) (place : Nat) (data : List UInt8) :
    (reachedData reached octets place data).length = data.length := by
  unfold reachedData
  rw [List.length_mapIdx]

/-- What a failing payload write leaves is, octet by octet, its data or what was there. -/
theorem getElem?_reachedData (reached : Nat → Bool) {octets : List UInt8} {place : Nat} {data : List UInt8}
    (h : place + data.length ≤ octets.length) {i : Nat} (hi : i < data.length) :
    (reachedData reached octets place data)[i]? = data[i]? ∨
      (reachedData reached octets place data)[i]? = octets[place + i]? := by
  unfold reachedData
  rw [List.getElem?_mapIdx, List.getElem?_eq_getElem hi, Option.map_some]
  rcases reached i with _ | _
  · refine Or.inr ?_
    rw [if_neg Bool.false_ne_true, List.getD_eq_getElem?_getD, List.getElem?_eq_getElem (by omega), Option.getD_some]
  · exact Or.inl (by rw [if_pos rfl])

/-- One payload write of the loop: the writer moves on, or the file is kept. -/
theorem payload_spec {v₀ v : Volume} {bytes : List UInt8} {w : Writer} (h : Writing v₀ bytes v w)
    (hc : w.currentCluster ≠ none) (ho : w.offsetInCluster ≤ v.clusterSize) (count : Nat)
    (hcount : count ≤ bytes.length - w.totalWritten) (hroom : count ≤ v.clusterSize - w.offsetInCluster) :
    Ends (payloadWrite (w.currentCluster.getD 0 * v.clusterSize + w.offsetInCluster)
        ((bytes.drop w.totalWritten).take count)) v
      (fun _ v' => Writing v₀ bytes v' { w with
        offsetInCluster := w.offsetInCluster + count
        totalWritten := w.totalWritten + count })
      fun _ v' => Kept v₀ bytes v' := by
  obtain ⟨cluster, hc⟩ := Option.ne_none_iff_exists'.mp hc
  obtain ⟨hp1, hp2, hp3, hp4⟩ := h.place cluster hc
  have htotal := h.total_le
  have hlength := h.length
  have hdata : ((bytes.drop w.totalWritten).take count).length = count := by
    rw [List.length_take, List.length_drop]
    omega
  have hfits : w.totalWritten + ((bytes.drop w.totalWritten).take count).length ≤ v.chain.length := by
    rw [hdata]
    rw [Nat.add_mul] at hp3
    omega
  have hoctet : ∀ i, w.totalWritten ≤ i → i < w.totalWritten + count →
      ((bytes.drop w.totalWritten).take count)[i - w.totalWritten]? = bytes[i]? := by
    intro i h1 h2
    rw [List.getElem?_take_of_lt (by omega), List.getElem?_drop]
    congr 1
    omega
  have hplace : w.currentCluster.getD 0 * v.clusterSize + w.offsetInCluster = w.totalWritten := by
    rw [hc]
    exact hp1
  rw [hplace]
  refine ends_cardWrite ?_ fun reached e => ?_
  · refine ⟨h.clusterSize, h.entryCluster, h.size, h.endMarked, h.cluster_pos, ?_, ?_, by show _ + _ ≤ _; omega, ?_, ?_,
      fun hn => absurd (hc.symm.trans hn) nofun, ?_, h.returns, h.preserveLen⟩
    · show _ ∣ (overwrite _ _ _).length
      rw [length_overwrite hfits]
      exact h.aligned
    · show _ ≤ (overwrite _ _ _).length
      rw [length_overwrite hfits]
      exact hlength
    · intro i hi
      have hi : i < w.totalWritten + count := hi
      show (overwrite _ _ _)[i]? = _
      rw [getElem?_overwrite hfits, hdata]
      split_ifs with hin
      · exact hoctet i hin.1 hin.2
      · exact h.front i (by omega)
    · intro i hi hw
      have hw : w.totalWritten + count ≤ i := hw
      show (overwrite _ _ _)[i]? = _
      rw [getElem?_overwrite hfits, hdata, if_neg (by omega)]
      exact h.back i hi (by omega)
    · intro c hc'
      obtain rfl := Option.some.inj (hc.symm.trans hc')
      refine ⟨?_, ?_, ?_, hp4⟩
      · show cluster * v.clusterSize + (w.offsetInCluster + count) = w.totalWritten + count
        omega
      · show w.offsetInCluster + count ≤ v.clusterSize
        omega
      · show _ ≤ (overwrite _ _ _).length
        rw [length_overwrite hfits]
        exact hp3
  · have hpart : w.totalWritten + (reachedData reached v.chain w.totalWritten
        ((bytes.drop w.totalWritten).take count)).length ≤ v.chain.length := by
      rw [length_reachedData]
      exact hfits
    refine ⟨h.clusterSize, h.entryCluster, h.size, h.endMarked, ?_, fun i hi => ?_⟩
    · show _ ≤ (overwrite _ _ _).length
      rw [length_overwrite hpart]
      exact hlength
    · show (overwrite _ _ _)[i]? = _ ∨ _ ∧ (overwrite _ _ _)[i]? = _
      rw [getElem?_overwrite hpart, length_reachedData, hdata]
      split_ifs with hin
      · rcases getElem?_reachedData reached hfits (i := i - w.totalWritten) (by omega) with hr | hr
        · refine Or.inr ⟨by omega, ?_⟩
          rw [hr]
          exact hoctet i hin.1 hin.2
        · rw [hr, show w.totalWritten + (i - w.totalWritten) = i by omega]
          exact h.kept.octets i hi
      · exact h.kept.octets i hi

/-- The loop of `write`, by induction on its rounds. -/
theorem writeLoop_spec {v₀ : Volume} {bytes : List UInt8} (fuel : Nat) {v : Volume} {w : Writer}
    (h : Writing v₀ bytes v w) (hfuel : bytes.length - w.totalWritten ≤ fuel) :
    Ends (writeLoop fuel w (bytes.drop w.totalWritten)) v
      (fun w' v' => Writing v₀ bytes v' w' ∧ w'.totalWritten = bytes.length ∧ (bytes ≠ [] → w'.currentCluster ≠ none))
      fun _ v' => Kept v₀ bytes v' := by
  induction fuel generalizing v w with
  | zero =>
    have := h.total_le
    refine ends_pure ⟨h, by omega, fun hne hn => ?_⟩
    have := List.length_pos_iff.mpr hne
    have := (h.fresh hn).1
    omega
  | succ fuel ih =>
    unfold writeLoop
    have htotal := h.total_le
    split
    · rename_i hnil
      rw [List.drop_eq_nil_iff] at hnil
      refine ends_pure ⟨h, by omega, fun hne hn => ?_⟩
      have := List.length_pos_iff.mpr hne
      have := (h.fresh hn).1
      omega
    · rename_i hne
      rw [List.drop_eq_nil_iff, not_le] at hne
      refine ends_bind ((makeRoom_spec h).mono (fun w' v' ⟨h', ht', hc', ho'⟩ => ?_) fun _ _ hk => hk)
      refine ends_bind (ends_get ?_)
      rw [← ht']
      have hlen : (bytes.drop w'.totalWritten).length = bytes.length - w'.totalWritten := List.length_drop
      refine ends_bind ((payload_spec h' hc' (by omega) _ (by omega) (by omega)).mono (fun _ v'' h'' => ?_) fun _ _ hk => hk)
      rw [List.drop_drop]
      exact ih h'' (by show _ - (_ + _) ≤ _; omega)

/-! ## The commit -/

/-- The chain has been ended behind the new octets, and the entry is still the one of `v₀`. -/
structure Cut (v₀ : Volume) (bytes : List UInt8) (v : Volume) : Prop where
  entryCluster : v.entryCluster = v₀.entryCluster
  size : v.size = v₀.size
  endMarked : v.endMarked = true
  front : bytes <+: v.chain
  octets : ∀ i < v.chain.length, i < v₀.old.length → v.chain[i]? = v₀.old[i]? ∨ i < bytes.length ∧ v.chain[i]? = bytes[i]?

/-- The entry leads to the new octets. -/
structure Committed (bytes : List UInt8) (v : Volume) : Prop where
  entryCluster : v.entryCluster = true
  size : v.size = bytes.length
  endMarked : v.endMarked = true
  front : bytes <+: v.chain

theorem Cut.congr {v₀ v v' : Volume} {bytes : List UInt8} (h : Cut v₀ bytes v) (hs : SameFile v v') : Cut v₀ bytes v' := by
  obtain ⟨-, h2, h3, h4, h5⟩ := hs
  refine ⟨h3.trans h.entryCluster, h5.trans h.size, h4.trans h.endMarked, ?_, ?_⟩
  · rw [h2]
    exact h.front
  · rw [h2]
    exact h.octets

/-- The chain that a writer with all its octets written leaves when it ends it behind its place. -/
theorem cut_of_writing {v₀ v : Volume} {bytes : List UInt8} {w : Writer} (h : Writing v₀ bytes v w)
    (ht : w.totalWritten = bytes.length) {last : Nat} (hc : w.currentCluster = some last) :
    Cut v₀ bytes (v.endedAt last) := by
  obtain ⟨hp1, hp2, hp3, -⟩ := h.place last hc
  have hlen : bytes.length ≤ (last + 1) * v.clusterSize := by
    rw [Nat.add_mul]
    omega
  refine ⟨h.entryCluster, h.size, h.endMarked, ?_, fun i hi ho => ?_⟩
  · rw [List.prefix_iff_getElem?]
    intro i hi
    show (v.chain.take _)[i]? = _
    rw [List.getElem?_take_of_lt (by omega), h.front i (by omega), List.getElem?_eq_getElem hi]
  · have hi : i < (v.chain.take ((last + 1) * v.clusterSize)).length := hi
    rw [List.length_take] at hi
    show (v.chain.take _)[i]? = _ ∨ _ ∧ (v.chain.take _)[i]? = _
    rw [List.getElem?_take_of_lt (by omega)]
    exact h.kept.octets i ho

/-- What a save leaves behind at any point: the new file, or the old entry over octets that are each the old or the new one. -/
def Left (v₀ : Volume) (bytes : List UInt8) (v : Volume) : Prop := Kept v₀ bytes v ∨ Cut v₀ bytes v ∨ Committed bytes v

/-- `finish`, once all the octets are written. -/
theorem finish_spec {v₀ v : Volume} {bytes : List UInt8} {w : Writer} (h : Writing v₀ bytes v w) (hne : bytes ≠ [])
    (ht : w.totalWritten = bytes.length) (hc : w.currentCluster ≠ none) :
    Ends (finish w) v (fun _ v' => Committed bytes v') fun _ v' => Left v₀ bytes v' := by
  obtain ⟨last, hc⟩ := Option.ne_none_iff_exists'.mp hc
  have hpos := List.length_pos_iff.mpr hne
  have h₁ : Writing v₀ bytes { v with writes := v.writes + 1 } w := h.congr ⟨rfl, rfl, rfl, rfl, rfl⟩
  have hcut := cut_of_writing h₁ ht hc
  have hfirst : w.firstCluster = true := (h.place last hc).2.2.2
  unfold finish
  refine ends_bind ?_
  unfold releaseClusters
  rw [if_neg (by omega), if_pos (by rw [h.preserveLen]; exact Nat.zero_le _), hc]
  refine ends_bind ?_
  unfold truncateChain
  refine ends_bind (ends_get ?_)
  refine ends_bind (ends_sectorWrite ?_ (fun _ => Or.inl h₁.kept) fun _ => Or.inr (Or.inl hcut))
  refine (freeClusters_same _ _).mono (fun _ v₂ hs => ends_pure ?_) fun _ _ hs => Or.inr (Or.inl (hcut.congr hs))
  have h₂ := hcut.congr hs
  -- the entry's write is the commit; nothing after it shows
  have hcommitted : Committed bytes (Volume.committed { v₂ with writes := v₂.writes + 1 } w) :=
    ⟨hfirst, by show max _ _ = _; rw [h.preserveLen, ht]; exact Nat.max_eq_left (Nat.zero_le _), h₂.endMarked, h₂.front⟩
  refine ends_bind (ends_sectorWrite ?_ (fun _ => Or.inr (Or.inl (h₂.congr ⟨rfl, rfl, rfl, rfl, rfl⟩)))
    fun _ => Or.inr (Or.inr hcommitted))
  have hsame : ∀ v', SameFile (Volume.committed { v₂ with writes := v₂.writes + 1 } w) v' → Committed bytes v' :=
    fun v' hs => ⟨hs.entryCluster.trans hcommitted.entryCluster, hs.size.trans hcommitted.size,
      hs.endMarked.trans hcommitted.endMarked, by rw [hs.chain]; exact hcommitted.front⟩
  exact (writeFsinfo_same _).mono (fun _ _ hs => hsame _ hs) fun _ _ hs => Or.inr (Or.inr (hsame _ hs))

end Ratputer.Faulty
