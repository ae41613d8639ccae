import Ratputer.Lemmas.FaultyVolume

/-!
# A save that fails

The configuration is rewritten in place: its octets go over the old ones, and only the write of the directory entry commits the
new size. So a save that returns leaves the new file, and one that fails or stops at any card write leaves the old file, the new
one, or octets that are each the old or the new one of their place.
-/

namespace Ratputer.Faulty

open Effect Volume

/-- A later read finds these octets, or refuses them for their number. -/
def Volume.Reads (v : Volume) (l : List UInt8) : Prop :=
  ∀ name max, Storage.readConfigFile volume name max v = if l.length ≤ max then .ok l v else .error .tooLarge v

/-- What a save of `new` over `old` may leave: the new octets, or as many as the old file has, each the old or the new one of its
place. They may be fewer where the chain was ended before the commit, and then begin with the new file. -/
def Mixture (old new l : List UInt8) : Prop :=
  l = new ∨ l.length ≤ old.length ∧ (∀ i < l.length, l[i]? = old[i]? ∨ l[i]? = new[i]?) ∧ (l.length < old.length → new <+: l)

namespace RewriteAux

theorem ends_mapErr {V α : Type} {error : StorageError} {call : FatM V α} {v : V} {Q : α → V → Prop}
    {E : StorageError → V → Prop} (h : Ends call v Q fun _ v' => E error v') : Ends (Storage.mapErr error call) v Q E := by
  unfold Ends at h
  unfold Ends Storage.mapErr
  cases hm : call v with
  | ok a v' =>
    rw [hm] at h
    exact h
  | error e v' =>
    rw [hm] at h
    exact h

/-! ## Reading back -/

theorem read_eq {v : Volume} (hend : v.endMarked = true) (position : Nat) :
    read ⟨v.size, position⟩ 256 v = .ok ((v.stored.drop position).take 256,
      ⟨v.size, position + ((v.stored.drop position).take 256).length⟩) v := by
  have hbytes : (v.chain.drop position).take (if v.entryCluster then min 256 (v.size - position) else 0) =
      (v.stored.drop position).take 256 := by
    unfold Volume.stored
    cases v.entryCluster with
    | false => simp
    | true => rw [if_pos rfl, if_pos rfl, List.drop_take, List.take_take]
  unfold read
  dsimp only
  rw [hbytes, hend, Bool.not_true, if_neg (by simp)]

/-- One round of reading on. -/
theorem read_round {v : Volume} {max fuel : Nat} {r r' : Reader} {bytes chunk : List UInt8}
    (h : Storage.mapErr .sd (volume.read r 256) v = .ok (chunk, r') v) :
    Storage.readAll volume max (fuel + 1) r bytes v =
      if chunk = [] then .ok bytes v
      else if max < bytes.length + chunk.length then .error .tooLarge v
      else Storage.readAll volume max fuel r' (bytes ++ chunk) v := by
  show EStateM.bind (Storage.mapErr .sd (volume.read r 256)) _ v = _
  unfold EStateM.bind
  rw [h]
  dsimp only
  split_ifs <;> rfl

/-- Reading on from a place gives the rest of the file, by induction on the rounds that are left. -/
theorem readAll_eq {v : Volume} (hend : v.endMarked = true) (max fuel position : Nat) (hfuel : max + 1 ≤ position + fuel)
    (hposition : position ≤ v.stored.length) (hmax : position ≤ max) :
    Storage.readAll volume max fuel ⟨v.size, position⟩ (v.stored.take position) v =
      if v.stored.length ≤ max then .ok v.stored v else .error .tooLarge v := by
  induction fuel generalizing position with
  | zero => omega
  | succ fuel ih =>
    have hread : Storage.mapErr .sd (volume.read ⟨v.size, position⟩ 256) v = .ok ((v.stored.drop position).take 256,
        ⟨v.size, position + ((v.stored.drop position).take 256).length⟩) v := by
      unfold Storage.mapErr
      rw [show volume.read ⟨v.size, position⟩ 256 v = _ from read_eq hend position]
      rfl
    rw [read_round hread]
    have hlen : ((v.stored.drop position).take 256).length = min 256 (v.stored.length - position) := by
      rw [List.length_take, List.length_drop]
    by_cases hnil : (v.stored.drop position).take 256 = []
    · rw [if_pos hnil]
      rw [hnil, List.length_nil] at hlen
      have hall : position = v.stored.length := by omega
      rw [hall, List.take_length, if_pos (by omega)]
    · rw [if_neg hnil, hlen]
      have hpos := List.length_pos_iff.mpr hnil
      by_cases hover : max < position + min 256 (v.stored.length - position)
      · rw [List.length_take, if_pos (by omega), if_neg (by omega)]
      · rw [List.length_take, if_neg (by omega)]
        have happend : v.stored.take position ++ (v.stored.drop position).take 256 =
            v.stored.take (position + min 256 (v.stored.length - position)) := by
          rw [List.take_add]
          congr 1
          rw [List.take_eq_take_iff, List.length_drop]
          omega
        rw [happend]
        exact ih _ (by omega) (by omega) (by omega)

theorem reads_stored {v : Volume} (hend : v.endMarked = true) : v.Reads v.stored := by
  intro name max
  exact readAll_eq hend max (max + 1) 0 (by omega) (Nat.zero_le _) (Nat.zero_le _)

/-- What a failed save leaves reads as a mixture. -/
theorem reads_of_left {v₀ v : Volume} {bytes : List UInt8} (hv : v₀.Sound) (h : Left v₀ bytes v) :
    ∃ l, v.Reads l ∧ Mixture v₀.stored bytes l := by
  have hunnamed : v₀.entryCluster = false → v.entryCluster = v₀.entryCluster → v.size = v₀.size →
      v.endMarked = true → ∃ l, v.Reads l ∧ Mixture v₀.stored bytes l := by
    intro hno h1 h2 h3
    have hsize := hv.unnamed hno
    refine ⟨v.stored, reads_stored h3, Or.inr ?_⟩
    have hnil : v.stored = [] := by
      unfold Volume.stored
      rw [h1, hno, if_neg Bool.false_ne_true]
    have hnil₀ : v₀.stored = [] := by
      unfold Volume.stored
      rw [hno, if_neg Bool.false_ne_true]
    rw [hnil, hnil₀]
    exact ⟨Nat.le_refl _, fun i hi => absurd hi (Nat.not_lt_zero i), fun hlt => absurd hlt (Nat.lt_irrefl _)⟩
  -- with the old entry, the octets that it reaches
  have hnamed : v₀.entryCluster = true → v.entryCluster = v₀.entryCluster → v.size = v₀.size →
      v.endMarked = true →
      (∀ i < v.chain.length, i < v₀.old.length → v.chain[i]? = v₀.old[i]? ∨ i < bytes.length ∧ v.chain[i]? = bytes[i]?) →
      (v.chain.length < v₀.old.length → bytes <+: v.chain) → ∃ l, v.Reads l ∧ Mixture v₀.stored bytes l := by
    intro hyes h1 h2 h3 hoctets hfront
    obtain ⟨hfits, -⟩ := hv.named hyes
    have hold : v₀.old = v₀.chain := by
      unfold Volume.old
      rw [if_pos hyes]
    have hstored : v.stored = v.chain.take v₀.size := by
      unfold Volume.stored
      rw [h1, if_pos hyes, h2]
    have hstored₀ : v₀.stored = v₀.chain.take v₀.size := by
      unfold Volume.stored
      rw [if_pos hyes]
    refine ⟨v.stored, reads_stored h3, Or.inr ?_⟩
    rw [hstored, hstored₀]
    rw [hold] at hoctets hfront
    have hlen₀ : (v₀.chain.take v₀.size).length = v₀.size := by
      rw [List.length_take]
      omega
    have hlen : (v.chain.take v₀.size).length = min v₀.size v.chain.length := List.length_take
    refine ⟨by omega, fun i hi => ?_, fun hlt => ?_⟩
    · rw [List.getElem?_take_of_lt (by omega), List.getElem?_take_of_lt (by omega)]
      exact (hoctets i (by omega) (by omega)).imp_right And.right
    · rw [List.take_of_length_le (by omega)]
      exact hfront (by omega)
  rcases h with h | h | h
  · cases hentry : v₀.entryCluster with
    | false => exact hunnamed hentry h.entryCluster h.size h.endMarked
    | true =>
      exact hnamed hentry h.entryCluster h.size h.endMarked (fun i _ => h.octets i) fun hlt =>
        absurd hlt (by have := h.length; omega)
  · cases hentry : v₀.entryCluster with
    | false => exact hunnamed hentry h.entryCluster h.size h.endMarked
    | true => exact hnamed hentry h.entryCluster h.size h.endMarked h.octets fun _ => h.front
  · refine ⟨bytes, ?_, Or.inl rfl⟩
    have hstored : v.stored = bytes := by
      unfold Volume.stored
      rw [h.entryCluster, if_pos rfl, h.size]
      exact (List.prefix_iff_eq_take.mp h.front).symm
    rw [← hstored]
    exact reads_stored h.endMarked

/-- A writer that has just been opened on the file. -/
theorem writing_new {v : Volume} {bytes : List UInt8} (hv : v.Sound) :
    Writing v bytes v (Writer.new { cluster := v.entryCluster, len := v.size }) := by
  obtain ⟨hpos, haligned, hnamed, hunnamed, hend⟩ := hv
  have hold : v.old.length ≤ v.chain.length := by
    unfold Volume.old
    split
    · exact Nat.le_refl _
    · exact Nat.zero_le _
  refine ⟨rfl, rfl, rfl, hend, hpos, haligned, hold, Nat.zero_le _, fun i hi => absurd hi (Nat.not_lt_zero i),
    fun i hi _ => ?_, fun hc => ?_, fun cluster hc => ?_, nofun, rfl⟩
  · unfold Volume.old at hi ⊢
    split at hi
    · rw [if_pos (by assumption)]
    · exact absurd hi (Nat.not_lt_zero i)
  · refine ⟨rfl, ?_, rfl⟩
    unfold Volume.old
    rw [if_neg]
    · rfl
    · intro hyes
      simp [Writer.new, hyes] at hc
  · have hyes : v.entryCluster = true := by
      by_contra hno
      simp [Writer.new, hno] at hc
    obtain rfl : cluster = 0 := by
      simp only [Writer.new, hyes, if_true, Option.some.injEq] at hc
      exact hc.symm
    refine ⟨Nat.zero_mul _, Nat.zero_le _, ?_, hyes⟩
    have := Nat.le_of_dvd (hnamed hyes).2 haligned
    omega

/-- On this volume a rewrite finds the file and hands its entry to the writer. -/
theorem writeConfigFile_eq (name : Str) (bytes : List UInt8) (v : Volume) :
    Storage.writeConfigFile volume name bytes v = (do
      let written ← Storage.mapErr .sd (write (.new { cluster := v.entryCluster, len := v.size }) bytes)
      Storage.mapErr .sd (finish written.2) : StorageM Volume Unit) v := rfl

/-- Rewriting the file, from the lookup to the commit. -/
theorem write_config_spec (name : Str) {bytes : List UInt8} {v : Volume} (hv : v.Sound) (hne : bytes ≠ []) :
    Ends (Storage.writeConfigFile volume name bytes) v (fun _ v' => Committed bytes v') fun _ v' => Left v bytes v' := by
  unfold Ends
  rw [writeConfigFile_eq]
  have hloop : Ends (writeLoop bytes.length (.new { cluster := v.entryCluster, len := v.size }) bytes) v
      (fun w' v' => Writing v bytes v' w' ∧ w'.totalWritten = bytes.length ∧ (bytes ≠ [] → w'.currentCluster ≠ none))
      fun _ v' => Kept v bytes v' :=
    writeLoop_spec bytes.length (writing_new hv) (by show _ - 0 ≤ _; omega)
  have hwrite : Ends (write (.new { cluster := v.entryCluster, len := v.size }) bytes) v
      (fun written v' => Writing v bytes v' written.2 ∧ written.2.totalWritten = bytes.length ∧
        written.2.currentCluster ≠ none)
      fun _ v' => Kept v bytes v' :=
    ends_bind (hloop.mono (fun _ _ ⟨hw, ht, hc⟩ => ends_pure ⟨hw, ht, hc hne⟩) fun _ _ hk => hk)
  refine ends_bind (F := fun _ v' => Committed bytes v') (E := fun _ v' => Left v bytes v')
    (ends_mapErr (hwrite.mono (fun written v' ⟨hw, ht, hc⟩ => ?_) fun _ _ hk => Or.inl hk))
  exact ends_mapErr (finish_spec hw hne ht hc)

/-! ## A first write that stores nothing -/

/-- A card write that fails and stores nothing. -/
theorem ends_lost_write {whole : Volume → Volume} {part : (Nat → Bool) → Volume → Volume} {v : Volume}
    {Q : Unit → Volume → Prop} {E : FatError → Volume → Prop} (hplan : v.plan v.writes = some fun _ => false)
    (h : E .other (part (fun _ => false) { v with writes := v.writes + 1 })) : Ends (cardWrite whole part) v Q E := by
  unfold Ends cardWrite
  rw [hplan]
  exact h

/-- Putting back what was there. -/
theorem overwrite_lost {octets : List UInt8} {place : Nat} {data : List UInt8} (h : place + data.length ≤ octets.length) :
    overwrite octets place (reachedData (fun _ => false) octets place data) = octets := by
  have hpart : place + (reachedData (fun _ => false) octets place data).length ≤ octets.length := by
    rw [length_reachedData]
    exact h
  refine List.ext_getElem? fun i => ?_
  rw [getElem?_overwrite hpart, length_reachedData]
  split_ifs with hin
  · unfold reachedData
    rw [List.getElem?_mapIdx, List.getElem?_eq_getElem (by omega), Option.map_some, if_neg Bool.false_ne_true,
      List.getD_eq_getElem?_getD, show place + (i - place) = i by omega, List.getElem?_eq_getElem (by omega),
      Option.getD_some]
  · rfl

/-- A save whose first card write stores nothing leaves the file as it was. -/
theorem write_config_lost (name : Str) {bytes : List UInt8} {v : Volume} (hv : v.Sound) (hne : bytes ≠ [])
    (hplan : v.plan v.writes = some fun _ => false) :
    Ends (Storage.writeConfigFile volume name bytes) v (fun _ _ => False) fun _ v' => SameFile v v' := by
  have hloop : ∀ fuel, Ends (writeLoop (fuel + 1) (.new { cluster := v.entryCluster, len := v.size }) bytes) v
      (fun _ _ => False) fun _ v' => SameFile v v' := by
    intro fuel
    unfold writeLoop
    rw [if_neg hne]
    cases hentry : v.entryCluster with
    | true =>
      have hroom : makeRoom (.new { cluster := true, len := v.size }) v =
          .ok (.new { cluster := true, len := v.size }) v := by
        show (if _ then _ else _ : FatM Volume Writer) v = _
        rw [if_neg]
        · rfl
        · have := hv.cluster_pos
          simp [Writer.new]
          omega
      refine ends_bind (show Ends _ v _ _ from ?_)
      unfold Ends
      rw [hroom]
      refine ends_bind (ends_get ?_)
      refine ends_bind (ends_lost_write hplan ?_)
      refine ⟨rfl, ?_, rfl, rfl, rfl⟩
      refine overwrite_lost ?_
      obtain ⟨-, hlen⟩ := hv.named hentry
      have := Nat.le_of_dvd hlen hv.aligned
      show 0 * v.clusterSize + 0 + (bytes.take (min bytes.length (v.clusterSize - 0))).length ≤ v.chain.length
      rw [List.length_take]
      omega
    | false =>
      refine ends_bind (ends_bind (ends_get ?_))
      rw [if_pos (show (Writer.new { cluster := false, len := v.size }).currentCluster.isNone = true ∨ _ from Or.inl rfl)]
      refine ends_bind (ends_orElse ?_)
      unfold allocateCluster
      refine ends_bind (ends_get ?_)
      split
      · exact ends_throw (ends_pure fun _ => .refl v)
      · exact ends_lost_write hplan (ends_pure fun _ => ⟨rfl, rfl, rfl, rfl, rfl⟩)
  unfold Ends
  rw [writeConfigFile_eq]
  obtain ⟨fuel, hfuel⟩ := Nat.exists_eq_succ_of_ne_zero (Nat.ne_of_gt (List.length_pos_iff.mpr hne))
  have hwrite : Ends (write (.new { cluster := v.entryCluster, len := v.size }) bytes) v (fun _ _ => False)
      fun _ v' => SameFile v v' := by
    unfold write
    rw [hfuel]
    exact ends_bind ((hloop fuel).mono (fun _ _ h => h.elim) fun _ _ h => h)
  exact ends_bind (F := fun _ _ => False) (E := fun _ v' => SameFile v v')
    (ends_mapErr (hwrite.mono (fun _ _ h => h.elim) fun _ _ h => h))

end RewriteAux

open RewriteAux

/-- Saving the configuration over an existing file, whatever card writes fail, and whatever they store. A save that returns
leaves the new file. One that fails, or stops, leaves the old file or a mixture of the two. It leaves the old file when nothing of
its first card write was stored, and when the configuration has no text or one that is too long. -/
theorem save_leaves_mixture (toml : Toml) (htext : ∀ file text, toml.toString file = some text → text ≠ [])
    (file : ConfigFile) (v : Volume) (hv : v.Sound) :
    Ends (Storage.save volume toml file) v
        (fun _ v' => ∃ text, toml.toString file = some text ∧ v'.Reads (asBytes text))
        (fun _ v' => v'.Reads v.stored ∨
          ∃ text l, toml.toString file = some text ∧ v'.Reads l ∧ Mixture v.stored (asBytes text) l) ∧
      (v.plan v.writes = (some fun _ => false) ∨
          (∀ text, toml.toString file = some text → MAX_CONFIG_BYTES < (asBytes text).length) →
        Ends (Storage.save volume toml file) v (fun _ _ => False) fun _ v' => v'.Reads v.stored) := by
  have hold : v.Reads v.stored := reads_stored hv.endMarked
  unfold Storage.save
  split
  · exact ⟨ends_throw (Or.inl hold), fun _ => ends_throw hold⟩
  · rename_i text hto
    split
    · exact ⟨ends_throw (Or.inl hold), fun _ => ends_throw hold⟩
    · rename_i hfits
      have hne : asBytes text ≠ [] := by
        cases text with
        | nil => exact absurd rfl (htext file [] hto)
        | cons c text =>
          intro hnil
          have := congrArg List.length hnil
          simp only [asBytes, Utf8.encode_cons, List.length_append, String.length_utf8EncodeChar, List.length_nil] at this
          have := c.utf8Size_pos
          omega
      refine ⟨(write_config_spec CONFIG_FILE hv hne).mono (fun _ v' hc => ⟨text, hto, ?_⟩) fun _ v' hl => Or.inr ?_, fun hkept => ?_⟩
      · have hstored : v'.stored = asBytes text := by
          unfold Volume.stored
          rw [hc.entryCluster, if_pos rfl, hc.size]
          exact (List.prefix_iff_eq_take.mp hc.front).symm
        rw [← hstored]
        exact reads_stored hc.endMarked
      · obtain ⟨l, hl, hm⟩ := reads_of_left hv hl
        exact ⟨text, l, hto, hl, hm⟩
      · have hplan : v.plan v.writes = some fun _ => false := hkept.resolve_right fun hlong => hfits (hlong text hto)
        refine (write_config_lost CONFIG_FILE hv hne hplan).mono (fun _ _ h => h) fun _ v' hs => ?_
        have hstored : v'.stored = v.stored := by
          unfold Volume.stored
          rw [hs.entryCluster, hs.chain, hs.size]
        rw [← hstored]
        exact reads_stored (hs.endMarked.trans hv.endMarked)

/-- The configuration file's octets, if they can be read. -/
def Volume.readBack (v : Volume) : Option (List UInt8) :=
  match Storage.readConfigFile volume CONFIG_FILE MAX_CONFIG_BYTES v with
  | .ok bytes _ => some bytes
  | .error _ _ => none

theorem readBack_of_reads {v : Volume} {l : List UInt8} (h : v.Reads l) (hl : l.length ≤ MAX_CONFIG_BYTES) :
    v.readBack = some l := by
  unfold Volume.readBack
  rw [h CONFIG_FILE MAX_CONFIG_BYTES, if_pos hl]

/-- A library whose text is the name of the NTP server. -/
def serverToml : Toml where
  fromStr text := some { ntpServer := String.ofList text }
  toString file := some (if file.ntpServer.toList = [] then ['-'] else file.ntpServer.toList)

/-- A card of two clusters of four octets with an eight-octet file, whose second card write fails and stores nothing. -/
def tornVolume : Volume :=
  { clusterSize := 4
    chain := asBytes "old file".toList
    size := 8
    plan := fun write => if write = 1 then some fun _ => false else none }

theorem sound_tornVolume : tornVolume.Sound := by
  constructor <;> decide

/-- `save_leaves_mixture` on the torn volume. -/
theorem save_leaves_mixture_torn :
    Ends (Storage.save volume serverToml { ntpServer := "new one." }) tornVolume
        (fun _ v' => ∃ text, serverToml.toString { ntpServer := "new one." } = some text ∧ v'.Reads (asBytes text))
        (fun _ v' => v'.Reads tornVolume.stored ∨ ∃ text l, serverToml.toString { ntpServer := "new one." } = some text ∧
          v'.Reads l ∧ Mixture tornVolume.stored (asBytes text) l) ∧
      (tornVolume.plan tornVolume.writes = (some fun _ => false) ∨
          (∀ text, serverToml.toString { ntpServer := "new one." } = some text → MAX_CONFIG_BYTES < (asBytes text).length) →
        Ends (Storage.save volume serverToml { ntpServer := "new one." }) tornVolume (fun _ _ => False)
          fun _ v' => v'.Reads tornVolume.stored) := by
  refine save_leaves_mixture serverToml (fun file text h => ?_) _ tornVolume sound_tornVolume
  obtain rfl := Option.some.inj h
  split
  · exact nofun
  · assumption

/-- A save is not all or nothing: on the torn volume it leaves half of the new file and half of the old one. -/
theorem not_all_or_nothing :
    ¬ ∀ (toml : Toml) (file : ConfigFile) (v : Volume), v.Sound → (∀ file text, toml.toString file = some text → text ≠ []) →
      Ends (Storage.save volume toml file) v
        (fun _ v' => ∀ text, toml.toString file = some text → v'.Reads (asBytes text))
        (fun _ v' => v'.Reads v.stored ∨ ∀ text, toml.toString file = some text → v'.Reads (asBytes text)) := by
  intro h
  have hsave := h serverToml { ntpServer := "new one." } tornVolume sound_tornVolume (fun file text h => by
    obtain rfl := Option.some.inj h
    split
    · exact nofun
    · assumption)
  have hleft : (match Storage.save volume serverToml { ntpServer := "new one." } tornVolume with
      | .ok _ _ => none
      | .error _ v' => v'.readBack) = some (asBytes "new file".toList) := by decide +kernel
  unfold Ends at hsave
  cases hr : Storage.save volume serverToml { ntpServer := "new one." } tornVolume with
  | ok _ v' =>
    rw [hr] at hleft
    nomatch hleft
  | error e v' =>
    rw [hr] at hleft hsave
    rcases hsave with hread | hread
    · exact absurd ((readBack_of_reads hread (by decide)).symm.trans hleft) (by decide)
    · exact absurd ((readBack_of_reads (hread _ rfl) (by decide)).symm.trans hleft) (by decide)

end Ratputer.Faulty
