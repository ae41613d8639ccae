import Ratputer.Lemmas.Fat32Read
import Ratputer.Lib.Mealy

/-!
# The file layer as a disk

Every run of calls on files, with writers and readers resumed from cursors, answers as a disk of plain contents does, and leaves a
volume whose table holds them: no cluster is shared between chains, and none is lost.
-/

namespace Ratputer.Fat32

open Chains

namespace Fat32Aux

variable {g : Geometry} {v v' : FatVolume} {l : List Nat} {lost : Finset Nat} {slot : Slot} {raw : RawFileEntry} {entry : FileEntry}
  {c : Client}

/-! ## Cursors that are kept -/

/-- The cursors kept for a slot are good: one is at the end of its file, the other where the last read ended. -/
structure Fresh (g : Geometry) (v : FatVolume) (slot : Slot) (kept : Kept) : Prop where
  append : ∀ cursor, kept.append = some cursor → ∃ raw, v.slots slot = some raw ∧ AtEnd g v slot raw cursor
  readAt : ∀ pos cursor, kept.readAt = some (pos, cursor) →
    ∃ raw, v.slots slot = some raw ∧ Reads g v slot raw pos cursor ∧ Rests g raw pos cursor

/-- Without cursors nothing is stale. -/
theorem fresh_none (g : Geometry) (v : FatVolume) (slot : Slot) : Fresh g v slot {} :=
  ⟨fun _ h => absurd h.symm (Option.some_ne_none _), fun _ _ h => absurd h.symm (Option.some_ne_none _)⟩

/-- Where a slot keeps its chain, and its entry what cursors are checked against, the cursors stay good. -/
theorem Fresh.congr {kept : Kept} (h : Fresh g v slot kept) (hchains : v'.chains g (some slot) = v.chains g (some slot))
    (hslots : ∀ raw, v.slots slot = some raw → ∃ raw', v'.slots slot = some raw' ∧ raw'.id slot = raw.id slot ∧
      raw'.size = raw.size ∧ raw'.firstCluster = raw.firstCluster) : Fresh g v' slot kept := by
  refine ⟨fun cursor hkept => ?_, fun pos cursor hkept => ?_⟩
  · obtain ⟨raw, hraw, hend⟩ := h.append cursor hkept
    obtain ⟨raw', hraw', hid, hsize, _⟩ := hslots raw hraw
    refine ⟨raw', hraw', hend.id.trans hid.symm, hend.first.trans (congrArg _ hchains.symm), hend.total.trans hsize.symm, ?_⟩
    rw [hchains, hsize]
    exact hend.place
  · obtain ⟨raw, hraw, hreads, hrests⟩ := h.readAt pos cursor hkept
    obtain ⟨raw', hraw', hid, hsize, hfirst⟩ := hslots raw hraw
    refine ⟨raw', hraw', ⟨hreads.id.trans hid.symm, hreads.first.trans hfirst.symm, hreads.size.trans hsize.symm,
      hreads.position, ?_⟩, ⟨?_, hrests.offset, hrests.cluster⟩⟩
    · rw [hchains, hsize]
      exact hreads.place
    · rw [hsize]
      exact hrests.within

/-- A client on a sound volume, with good cursors. -/
structure Valid (g : Geometry) (lost : Finset Nat) (c : Client) : Prop where
  sound : Sound g lost c.volume
  fresh : ∀ slot, Fresh g c.volume slot (c.kept slot)

/-- A call came to the same on the volume as on the disk, with the same answer. -/
structure Agrees (g : Geometry) (lost : Finset Nat) (r : Client × Answer) (d : Disk × Answer) : Prop where
  valid : Valid g lost r.1
  disk : r.1.volume.disk g = d.1
  answer : r.2 = d.2

/-- A call on one slot keeps the others' cursors good. -/
theorem Valid.put (h : Valid g lost c) {new : Option Stored} (hputs : Puts g lost c.volume slot new v') {kept : Kept}
    (hfresh : Fresh g v' slot kept) : Valid g lost (c.put slot v' kept) where
  sound := hputs.sound
  fresh other := by
    unfold Client.put
    dsimp only
    by_cases hother : other = slot
    · rw [hother, Function.update_self]
      exact hfresh
    · rw [Function.update_of_ne hother]
      refine (h.fresh other).congr (hputs.chains other hother) fun raw hraw => ⟨raw, ?_, rfl, rfl, rfl⟩
      rw [hputs.slots other hother, hraw]

/-- The later of two states of a slot counts. -/
theorem put_put (c : Client) (slot : Slot) (v v' : FatVolume) (kept kept' : Kept) :
    (c.put slot v kept).put slot v' kept' = c.put slot v' kept' := by
  unfold Client.put
  dsimp only
  rw [Function.update_idem]

/-- A call that puts something and keeps nothing. -/
theorem Valid.agrees (h : Valid g lost c) {new : Option Stored} (hputs : Puts g lost c.volume slot new v') (answer : Answer) :
    Agrees g lost (c.put slot v' {}, answer) ((c.volume.disk g).put g slot new, answer) :=
  ⟨h.put hputs (fresh_none g v' slot), hputs.disk, rfl⟩

/-- A call that leaves everything. -/
theorem Valid.refuses (h : Valid g lost c) (answer : Answer) : Agrees g lost (c, answer) (c.volume.disk g, answer) := ⟨h, rfl, rfl⟩

/-- A search finds a file exactly where the disk holds one. -/
theorem find_cases (g : Geometry) (c : Client) (slot : Slot) :
    c.find slot = none ∧ (∀ content, (c.volume.disk g).stored slot ≠ some (.file content)) ∨
    ∃ raw entry, c.find slot = some entry ∧ Handle g c.volume slot raw entry ∧ raw.directory = false := by
  unfold Client.find
  rcases lookup_cases g c.volume slot with ⟨hlookup, hnone⟩ | ⟨raw, entry, hlookup, hin⟩
  · rw [hlookup]
    refine .inl ⟨rfl, fun content heq => ?_⟩
    unfold FatVolume.disk at heq
    dsimp only at heq
    rw [hnone] at heq
    cases heq
  · rw [hlookup]
    cases hdirectory : raw.directory with
    | true =>
      refine .inl ⟨?_, fun content heq => ?_⟩
      · rw [Option.filter_some, hin.directory, hdirectory]
        rfl
      · unfold FatVolume.disk at heq
        dsimp only at heq
        rw [hin.stored, Option.map_some, view, if_pos hdirectory] at heq
        cases heq
    | false =>
      refine .inr ⟨raw, entry, ?_, hin, hdirectory⟩
      rw [Option.filter_some, hin.directory, hdirectory]
      rfl

/-! ## The simple calls -/

/-- A slot stores something where it has an entry. -/
theorem stored_isSome (v : FatVolume) (slot : Slot) : ((v.disk g).stored slot).isSome = (v.slots slot).isSome := by
  unfold FatVolume.disk
  dsimp only
  cases v.slots slot <;> rfl

/-- A new file. -/
theorem step_create (h : Valid g lost c) (slot : Slot) (name : List UInt8) (now : FatDateTime) :
    Agrees g lost (c.step g (.create slot name now)) ((c.volume.disk g).step g (.create slot name now)) := by
  unfold Client.step Disk.step
  dsimp only
  rw [stored_isSome]
  cases hslot : c.volume.slots slot with
  | some raw => exact h.refuses .refused
  | none => exact h.agrees (h.sound.createFile hslot name now) .done

/-- A new directory. -/
theorem step_createDir (h : Valid g lost c) (slot : Slot) (name dots : List UInt8) (now : FatDateTime) :
    Agrees g lost (c.step g (.createDir slot name dots now)) ((c.volume.disk g).step g (.createDir slot name dots now)) := by
  unfold Client.step Disk.step
  dsimp only
  rw [stored_isSome]
  cases hslot : c.volume.slots slot with
  | some raw => exact h.refuses .refused
  | none =>
    unfold Client.change
    rcases h.sound.createDir hslot name dots now with ⟨v', hcreate, hroom, hputs⟩ | ⟨hcreate, hfull⟩
    · rw [hcreate, if_neg hroom]
      exact h.agrees hputs .done
    · rw [hcreate, if_pos hfull]
      have hself := h.agrees (h.sound.puts_self slot) (.failed .noFreeSpace)
      rw [Disk.put_self] at hself
      exact hself

/-- A truncation. -/
theorem step_truncate (h : Valid g lost c) (slot : Slot) (size : Nat) (now : FatDateTime) :
    Agrees g lost (c.step g (.truncate slot size now)) ((c.volume.disk g).step g (.truncate slot size now)) := by
  unfold Client.step Disk.step
  dsimp only
  rcases find_cases g c slot with ⟨hfind, hnone⟩ | ⟨raw, entry, hfind, hin, hfile⟩
  · rw [hfind]
    cases hstored : (c.volume.disk g).stored slot with
    | none => exact h.refuses .refused
    | some stored =>
      cases stored with
      | directory n => exact h.refuses .refused
      | file content => exact absurd hstored (hnone content)
  · rw [hfind, stored_of_file hin.stored hfile]
    unfold Client.change
    obtain ⟨v', htruncate, hputs⟩ := hin.truncate h.sound hfile size now
    dsimp only
    rw [htruncate]
    exact h.agrees hputs .done

/-- A deletion. -/
theorem step_delete (h : Valid g lost c) (slot : Slot) :
    Agrees g lost (c.step g (.delete slot)) ((c.volume.disk g).step g (.delete slot)) := by
  unfold Client.step Disk.step
  dsimp only
  rw [stored_isSome]
  rcases lookup_cases g c.volume slot with ⟨hlookup, hnone⟩ | ⟨raw, entry, hlookup, hin⟩
  · rw [hlookup, hnone]
    exact h.refuses .refused
  · rw [hlookup, hin.stored]
    unfold Client.change
    obtain ⟨v', hdelete, hputs⟩ := hin.delete h.sound
    dsimp only
    rw [hdelete]
    exact h.agrees hputs .done

/-- A change of times. -/
theorem step_setTimes (h : Valid g lost c) (slot : Slot) (modified : Option FatDateTime) (accessedDate : Option Nat) :
    Agrees g lost (c.step g (.setTimes slot modified accessedDate))
      ((c.volume.disk g).step g (.setTimes slot modified accessedDate)) := by
  unfold Client.step Disk.step
  dsimp only
  rw [stored_isSome]
  rcases lookup_cases g c.volume slot with ⟨hlookup, hnone⟩ | ⟨raw, entry, hlookup, hin⟩
  · rw [hlookup, hnone]
    exact h.refuses .refused
  · rw [hlookup, hin.stored]
    unfold Client.touch
    obtain ⟨v', hset, hputs, hchains, raw', hraw', hid, hdirectory, hsize, hfirst⟩ := hin.setTimes h.sound modified accessedDate
    dsimp only
    rw [hset]
    have hdisk := hputs.disk
    rw [Disk.put_self] at hdisk
    refine ⟨⟨hputs.sound, fun other => ?_⟩, hdisk, rfl⟩
    by_cases hother : other = slot
    · subst hother
      refine (h.fresh other).congr (congrFun hchains _) fun raw₁ hraw₁ => ?_
      obtain rfl : raw = raw₁ := Option.some.inj (hin.stored.symm.trans hraw₁)
      exact ⟨raw', hraw', hid, hsize, hfirst⟩
    · refine (h.fresh other).congr (hputs.chains other hother) fun raw₁ hraw₁ => ⟨raw₁, ?_, rfl, rfl, rfl⟩
      exact (hputs.slots other hother).trans hraw₁

/-! ## Reads -/

/-- A reader is opened at the offset, resumed or not. -/
theorem openReader_spec (h : Valid g lost c) (hin : Handle g c.volume slot raw entry) (hfile : raw.directory = false) (offset : Nat) :
    ∃ r, c.openReader g entry offset = .ok r ∧ Reads g c.volume slot raw offset r := by
  have hslot : entry.entrySlot = slot := congrArg EntryId.entrySlot hin.id
  unfold Client.openReader
  rw [hslot]
  cases hkept : (c.kept slot).readAt.filter fun kept => kept.1 = offset with
  | none => exact hin.readerAt h.sound hfile offset
  | some kept =>
    obtain ⟨pos, cursor⟩ := kept
    obtain ⟨hread, hpos⟩ := Option.filter_eq_some_iff.mp hkept
    obtain rfl : pos = offset := of_decide_eq_true hpos
    obtain ⟨raw', hraw', hreads, hrests⟩ := (h.fresh slot).readAt pos cursor hread
    obtain rfl : raw = raw' := Option.some.inj (hin.stored.symm.trans hraw')
    exact ⟨cursor, hin.readerFromCursor hfile hreads hrests, hreads⟩

/-- A read, from a kept cursor or a new reader. -/
theorem step_read (h : Valid g lost c) (slot : Slot) (offset count : Nat) :
    Agrees g lost (c.step g (.read slot offset count)) ((c.volume.disk g).step g (.read slot offset count)) := by
  unfold Client.step Disk.step Client.read
  dsimp only
  rcases find_cases g c slot with ⟨hfind, hnone⟩ | ⟨raw, entry, hfind, hin, hfile⟩
  · rw [hfind]
    cases hstored : (c.volume.disk g).stored slot with
    | none => exact h.refuses .refused
    | some stored =>
      cases stored with
      | directory n => exact h.refuses .refused
      | file content => exact absurd hstored (hnone content)
  · obtain ⟨r, hopen, hreads⟩ := openReader_spec h hin hfile offset
    obtain ⟨r', hread, hnext⟩ := hreads.read h.sound hin.stored hfile count
    have hboth : (c.openReader g entry offset >>= fun reader => reader.read g c.volume count) = .ok
        (((content g c.volume (c.volume.chains g (some slot)) raw.size).drop offset).take count, r') := by
      rw [hopen]
      exact hread
    rw [hfind, stored_of_file hin.stored hfile]
    dsimp only
    rw [hboth]
    have hself := h.sound.puts_self slot
    refine ⟨h.put hself ⟨(h.fresh slot).append, fun pos cursor hkept => ?_⟩, rfl, rfl⟩
    dsimp only at hkept
    split at hkept
    · exact absurd hkept.symm (Option.some_ne_none _)
    · next hne =>
      obtain ⟨rfl, rfl⟩ := Prod.mk.inj (Option.some.inj hkept)
      obtain ⟨hreads', hrests⟩ := hnext hne
      exact ⟨raw, hin.stored, hreads', hrests⟩

/-! ## Writes -/

/-- What a call must not cut off. -/
def preserves (size : Nat) : How → Nat
  | .writeAt _ => size
  | _ => 0

/-- A writer is opened at the octet to write first, resumed or not. -/
theorem openWriter_spec (h : Valid g lost c) (hin : Handle g c.volume slot raw entry) (hfile : raw.directory = false) {how : How}
    (hstart : how.start raw.size ≤ raw.size) :
    ∃ w, c.openWriter g entry how = .ok (w, { c.volume with openWriters := [slot] }) ∧
      Begins g c.volume slot raw (preserves raw.size how) (how.start raw.size) w := by
  have hslot : entry.entrySlot = slot := congrArg EntryId.entrySlot hin.id
  unfold Client.openWriter
  cases how with
  | replace => exact hin.new h.sound hfile
  | append =>
    dsimp only
    rw [hslot]
    cases hkept : (c.kept slot).append with
    | none => exact hin.newAppend h.sound hfile
    | some cursor =>
      obtain ⟨raw', hraw', hend⟩ := (h.fresh slot).append cursor hkept
      obtain rfl : raw = raw' := Option.some.inj (hin.stored.symm.trans hraw')
      exact hin.newAppendFromCursor h.sound hfile hend
  | writeAt offset => exact hin.newAt h.sound hfile hstart

/-- A writer keeps the old tail or none of it. -/
theorem preserves_cases (size : Nat) (how : How) : preserves size how = 0 ∨ preserves size how = size := by
  cases how
  · exact .inl rfl
  · exact .inl rfl
  · exact .inr rfl

/-- The content after a write, as the octets of the file that it leaves. -/
theorem result_eq {how : How} {old data : List UInt8} (hstart : how.start old.length ≤ old.length) :
    (splice old (how.start old.length) data).take (max (how.start old.length + data.length) (preserves old.length how)) =
      how.result old data := by
  unfold splice
  cases how with
  | replace =>
    show (old.take 0 ++ data ++ old.drop (0 + data.length)).take (max (0 + data.length) 0) = data
    rw [List.take_zero, List.nil_append, Nat.zero_add, Nat.max_zero, List.take_left]
  | append =>
    show (old.take old.length ++ data ++ old.drop (old.length + data.length)).take (max (old.length + data.length) 0) = old ++ data
    rw [List.take_length, List.drop_of_length_le (Nat.le_add_right _ _), List.append_nil, Nat.max_zero]
    exact List.take_of_length_le (List.length_append ▸ le_rfl)
  | writeAt offset =>
    show (old.take offset ++ data ++ old.drop (offset + data.length)).take (max (offset + data.length) old.length) =
      splice old offset data
    refine List.take_of_length_le ?_
    have hle : offset ≤ old.length := hstart
    rw [List.length_append, List.length_append, List.length_take, List.length_drop]
    omega

/-- What a call leaves that had room for all of its data. -/
theorem range_result {how : How} {data : List UInt8} (hstart : how.start raw.size ≤ raw.size) :
    (List.range (max (how.start raw.size + data.length) (preserves raw.size how))).map
      (overlay (octet g v l) (how.start raw.size) data) =
      how.result (content g v l raw.size) data := by
  have hstart' : how.start (content g v l raw.size).length ≤ (content g v l raw.size).length := by rwa [length_content]
  have hmax : max (how.start raw.size + data.length) (preserves raw.size how) ≤ max (how.start raw.size + data.length) raw.size := by
    have hpreserves := preserves_cases raw.size how
    omega
  rw [range_overlay hstart hmax, ← result_eq hstart', length_content]
  rfl

/-- Where a writer has committed the end of its file, its cursor is there. -/
theorem at_end_of_commits {w : FileWriter} {size : Nat} {octets : Nat → UInt8} (hc : Commits g lost v slot raw l size octets v')
    (hid : w.toEntryId = raw.id slot) (hfirst : w.firstCluster = l.head?) (hpos : 0 < w.totalWritten) (hsize : size = w.totalWritten)
    (hplace : (w.currentCluster, w.offsetInCluster) = stand g l w.totalWritten) :
    ∃ raw', v'.slots slot = some raw' ∧ AtEnd g v' slot raw' w.appendCursor := by
  obtain ⟨raw', hslots, hid', _, hsize'⟩ := hc.slots
  obtain ⟨l', hchains, hwithin, hlen⟩ := hc.chains
  have hlt : (w.totalWritten - 1) / g.clusterSize < l'.length := by
    rw [hlen, hsize, ← Nat.sub_add_cancel hpos, clustersFor_succ, Nat.add_sub_cancel]
    exact Nat.lt_succ_self _
  have hget (i : Nat) (hi : i < l'.length) : l[i]? = l'[i]? := by
    obtain ⟨r, rfl⟩ := hwithin
    exact List.getElem?_append_left hi
  refine ⟨raw', by rw [hslots, Function.update_self], hid.trans hid'.symm, ?_, (hsize'.trans hsize).symm, ?_⟩
  · rw [hchains, Function.update_self]
    show w.firstCluster = _
    rw [hfirst, List.head?_eq_getElem?, List.head?_eq_getElem?, hget 0 (Nat.zero_lt_of_lt hlt)]
  · rw [hchains, Function.update_self, hsize', hsize]
    refine hplace.trans ?_
    unfold stand
    rw [if_neg (Nat.ne_of_gt hpos), if_neg (Nat.ne_of_gt hpos), hget _ hlt]

/-- A prefix of what was to be written is all that is seen of it in the file's own clusters. -/
theorem take_splice {old data written : List UInt8} {start m : Nat} (hwithin : written <+: data) (hstart : start ≤ old.length)
    (hm : m ≤ start + written.length) : (splice old start written).take m = (old.take start ++ data).take m := by
  obtain ⟨rest, rfl⟩ := hwithin
  have hlen : (old.take start ++ written).length = start + written.length := by
    rw [List.length_append, List.length_take, Nat.min_eq_left hstart]
  have hcut (more : List UInt8) : (old.take start ++ written ++ more).take m = (old.take start ++ written).take m :=
    List.take_append_of_le_length (hlen ▸ hm)
  unfold splice
  rw [← List.append_assoc, hcut, hcut]

/-- What a call that is not refused promises: no gap, and no more than 4 GiB. -/
theorem of_not_refuses {how : How} {size count : Nat} (h : how.refuses size count = false) :
    how.start size ≤ size ∧ how.start size + count < 2 ^ 32 := by
  have hnot := of_decide_eq_false h
  omega

/-- A writer that has been given up leaves its file with the clusters it had, and what was written into them. -/
theorem given_up (h : Valid g lost c) (hin : Handle g c.volume slot raw entry) (hfile : raw.directory = false) {preserve pos : Nat}
    {D : List UInt8} {w : FileWriter}
    (hheld : Held g (opened g c.volume slot raw preserve pos) D (c.volume.chains g (some slot)) w v)
    (hknown : raw.size ≤ pos + D.length) :
    Puts g lost c.volume slot
      (some (.file ((List.range raw.size).map (overlay (octet g c.volume (c.volume.chains g (some slot))) pos D))))
      (v.unregisterWriter slot) ∧ (v.unregisterWriter slot).slots slot = some raw ∧
      (v.unregisterWriter slot).chains g (some slot) = c.volume.chains g (some slot) := by
  have hslots : v.slots = c.volume.slots := hheld.slots
  have hraw : v.slots slot = some raw := hslots ▸ hin.stored
  have hsame : (v.unregisterWriter slot).slots = Function.update c.volume.slots slot (some raw) := by
    refine hslots.trans ?_
    rw [← hin.stored, Function.update_eq_self]
  have hfirst : raw.first = (c.volume.chains g (some slot)).head? := by
    unfold FatVolume.chains
    rw [head?_chainFrom]
    unfold FatVolume.first
    dsimp only
    rw [hin.stored]
    rfl
  have hputs := h.sound.puts (some raw) (c.volume.chains g (some slot)) (v.unregisterWriter slot) hsame hheld.changes hfirst
    hheld.counted (by
      show v.openWriters.erase slot = []
      rw [hheld.openWriters]
      exact List.erase_cons_head ..) hheld.spared fun raw' heq => by
        obtain rfl := Option.some.inj heq
        exact h.sound.sizes slot raw hin.stored
  refine ⟨?_, hraw, ?_⟩
  · refine (congrArg (fun new => Puts g lost c.volume slot new _) ?_).mpr hputs
    refine congrArg some (Eq.trans ?_ (if_neg (by rw [hfile]; decide)).symm)
    refine congrArg Stored.file (List.map_congr_left fun i hi => ?_)
    have hi' := List.mem_range.mp hi
    have hsize := hin.size_le h.sound hfile
    exact (hheld.octets i (by omega) (.inl (show i < pos + D.length by omega))).symm
  · rw [h.sound.chains_change hsame hheld.changes hfirst, Function.update_self]

/-- So the call leaves the size, and of its data what stands before that. -/
theorem agrees_given_up (h : Valid g lost c) (hin : Handle g c.volume slot raw entry) (hfile : raw.directory = false)
    {preserve start : Nat}
    {data written : List UInt8} {w : FileWriter}
    (hheld : Held g (opened g c.volume slot raw preserve start) written (c.volume.chains g (some slot)) w v)
    (hwithin : written <+: data) (hstart : start ≤ raw.size) (hknown : raw.size ≤ start + written.length) :
    Agrees g lost (c.put slot (v.unregisterWriter slot) { c.kept slot with append := none }, .failed .noFreeSpace)
      ((c.volume.disk g).put g slot
        (some (.file (((content g c.volume (c.volume.chains g (some slot)) raw.size).take start ++ data).take raw.size))),
        .failed .noFreeSpace) := by
  obtain ⟨hputs, hraw, hchains⟩ := given_up h hin hfile hheld hknown
  rw [range_overlay hstart (le_max_right _ _)] at hputs
  have hstart' : start ≤ (content g c.volume (c.volume.chains g (some slot)) raw.size).length := by rwa [length_content]
  have htake := take_splice (m := raw.size) hwithin hstart' hknown
  have hkeep := (h.fresh slot).congr hchains fun raw₁ hraw₁ => by
    obtain rfl : raw = raw₁ := Option.some.inj (hin.stored.symm.trans hraw₁)
    exact ⟨raw, hraw, rfl, rfl, rfl⟩
  have hfresh : Fresh g (v.unregisterWriter slot) slot { c.kept slot with append := none } :=
    ⟨fun _ hkept => absurd hkept.symm (Option.some_ne_none _), hkeep.readAt⟩
  refine ⟨h.put hputs hfresh, hputs.disk.trans ?_, rfl⟩
  exact congrArg (fun bytes => (c.volume.disk g).put g slot (some (.file bytes))) htake

/-- A write by a new writer, which is committed or given up. -/
theorem step_write (h : Valid g lost c) (slot : Slot) (how : How) (chunks : List (List UInt8)) (commit : Bool) (now : FatDateTime) :
    Agrees g lost (c.step g (.write slot how chunks commit now)) ((c.volume.disk g).step g (.write slot how chunks commit now)) := by
  unfold Client.step Disk.step Client.write Disk.write
  dsimp only
  rcases find_cases g c slot with ⟨hfind, hnone⟩ | ⟨raw, entry, hfind, hin, hfile⟩
  · rw [hfind]
    cases hstored : (c.volume.disk g).stored slot with
    | none => exact h.refuses .refused
    | some stored =>
      cases stored with
      | directory n => exact h.refuses .refused
      | file content => exact absurd hstored (hnone content)
  have hslot : entry.entrySlot = slot := congrArg EntryId.entrySlot hin.id
  rw [hfind, stored_of_file hin.stored hfile]
  dsimp only
  rw [hin.size, length_content]
  cases hrefused : how.refuses raw.size chunks.flatten.length with
  | true => exact h.refuses .refused
  | false =>
    obtain ⟨hstart, hend⟩ := of_not_refuses hrefused
    have hsize := (h.sound.sizes slot raw hin.stored).1
    have hlen := hin.length h.sound hfile
    have hwithin := hin.size_le h.sound hfile
    have hpreserves := preserves_cases raw.size how
    obtain ⟨w, hopen, hbegins⟩ := openWriter_spec h hin hfile hstart
    obtain ⟨hheld, hstands, htotal⟩ := hbegins.held h.sound (hstart.trans hwithin)
    have hruns : Runs g (opened g c.volume slot raw (preserves raw.size how) (how.start raw.size)).volume
      (c.volume.chains g (some slot)) :=
      ⟨(h.sound.runs (some slot)).chained, (h.sound.runs (some slot)).inside⟩
    have hroom : (opened g c.volume slot raw (preserves raw.size how) (how.start raw.size)).room g =
        (c.volume.disk g).free + clustersFor g raw.size := congrArg (_ + ·) hlen
    rw [if_neg Bool.false_ne_true, if_neg Bool.false_ne_true, hopen]
    dsimp only
    rcases hheld.writeAll hruns chunks hstands (htotal.trans (Nat.add_zero _).symm) with
      ⟨l', w', v', hwrite, hheld', hstands', htotal'⟩ | ⟨D', w', v', hwrite, hwithin, hshort, hheld', hstands', htotal', hfull⟩
    · rw [List.nil_append] at hheld' htotal'
      have hfits : how.start raw.size + chunks.flatten.length ≤ ((c.volume.disk g).free + clustersFor g raw.size) * g.clusterSize := by
        rw [← hroom]
        exact htotal' ▸ hheld'.length_le hstands' hruns
      replace htotal' : w'.totalWritten = how.start raw.size + chunks.flatten.length := htotal'
      obtain ⟨v'', hfinish, hcommits⟩ := hheld'.commit hstands' h.sound hin.stored hfile hpreserves (by omega)
          (fun i hi => by omega) now
      have hputs := hcommits.puts
      rw [htotal', range_result hstart] at hputs
      rw [if_pos hfits, hwrite]
      dsimp only
      unfold Client.commit
      rw [hfinish, hslot]
      refine ⟨h.put hputs ⟨fun cursor hkept => ?_, fun _ _ hkept => absurd hkept.symm (Option.some_ne_none _)⟩, hputs.disk, rfl⟩
      dsimp only at hkept
      split at hkept
      · next hat =>
        obtain rfl := Option.some.inj hkept
        rw [hin.size] at hat
        exact at_end_of_commits hcommits hheld'.entry hheld'.first hat.1 (by omega) hstands'.place
      · exact absurd hkept.symm (Option.some_ne_none _)
    · rw [List.nil_append] at hwithin hshort
      replace hfull : how.start raw.size + D'.length = ((c.volume.disk g).free + clustersFor g raw.size) * g.clusterSize := by
        rw [← hroom]
        exact hfull
      replace htotal' : w'.totalWritten = (c.volume.chains g (some slot)).length * g.clusterSize := htotal'
      have hown : (c.volume.chains g (some slot)).length * g.clusterSize ≤ how.start raw.size + D'.length := by
        rw [hfull, hlen]
        exact Nat.mul_le_mul_right _ (Nat.le_add_left _ _)
      have hstart' : how.start raw.size ≤ (content g c.volume (c.volume.chains g (some slot)) raw.size).length := by
        rwa [length_content]
      rw [if_neg (by omega), hwrite]
      dsimp only
      cases commit with
      | false => exact agrees_given_up h hin hfile hheld' hwithin hstart (by omega)
      | true =>
        have hmax : max w'.totalWritten (preserves raw.size how) = (c.volume.chains g (some slot)).length * g.clusterSize := by omega
        obtain ⟨v'', hfinish, hcommits⟩ := hheld'.commit hstands' h.sound hin.stored hfile hpreserves (by omega)
            (fun i hi => by omega) now
        have hputs := hcommits.puts
        rw [hmax, range_overlay hstart (by omega)] at hputs
        have htake := take_splice (m := (c.volume.chains g (some slot)).length * g.clusterSize) hwithin hstart' (by omega)
        rw [← content, htake, hlen] at hputs
        unfold Client.commit
        rw [hfinish, hslot]
        dsimp only
        rw [put_put]
        exact h.agrees hputs (.failed .noFreeSpace)

/-- Every call agrees. -/
theorem step_agrees (h : Valid g lost c) (request : Request) : Agrees g lost (c.step g request) ((c.volume.disk g).step g request) := by
  cases request with
  | create slot name now => exact step_create h slot name now
  | createDir slot name dots now => exact step_createDir h slot name dots now
  | write slot how chunks commit now => exact step_write h slot how chunks commit now
  | read slot offset count => exact step_read h slot offset count
  | truncate slot size now => exact step_truncate h slot size now
  | setTimes slot modified accessedDate => exact step_setTimes h slot modified accessedDate
  | delete slot => exact step_delete h slot

/-! ## A formatted volume -/

/-- A volume whose root directory has one cluster, and that has nothing else. -/
def formatted (g : Geometry) : FatVolume where
  fat cluster := if cluster = g.rootClus then 0x0FFFFFFF#32 else 0#32
  data _ _ := 0
  slots _ := none
  freeCount := (clusters g).card - 1
  nextFree := FIRST_DATA_CLUSTER
  fsInfo := ((clusters g).card - 1, FIRST_DATA_CLUSTER)
  openWriters := []

/-- Every cluster of an empty volume but the root's is free. -/
theorem cell_formatted (g : Geometry) (cluster : Nat) :
    (formatted g).cell cluster = if cluster = g.rootClus then .last else .free := by
  unfold FatVolume.cell FatVolume.readClus formatted
  dsimp only
  split <;> rfl

/-- The root is a chain of one cluster. -/
theorem runs_formatted (hroot : g.rootClus ∈ clusters g) : Runs g (formatted g) [g.rootClus] := by
  refine ⟨chained_cons.mpr ⟨?_, chained_nil⟩, fun a ha => ?_⟩
  · rw [cell_formatted, if_pos rfl]
    rfl
  · rw [List.mem_singleton.mp ha]
    exact hroot

/-- An empty volume is sound. -/
theorem sound_formatted (hroot : g.rootClus ∈ clusters g) : Sound g ∅ (formatted g) := by
  have hruns := runs_formatted hroot
  have hchain : (formatted g).chains g none = [g.rootClus] := hruns.chainFrom
  refine ⟨⟨fun owner => ?_, fun owner => ?_, fun i j hne a ha => ?_, fun a _ hused => ?_,
    fun a ha => absurd ha (Finset.notMem_empty a)⟩, .inr ?_, fun slot raw hraw => absurd hraw.symm (Option.some_ne_none raw), rfl⟩
  · cases owner with
    | none =>
      rw [hchain]
      exact hruns.chained
    | some slot => exact chained_nil
  · cases owner with
    | none =>
      rw [hchain]
      exact hruns.inside
    | some slot => exact fun a ha => absurd ha List.not_mem_nil
  · cases j with
    | some slot => exact List.not_mem_nil
    | none =>
      cases i with
      | none => exact absurd rfl hne
      | some slot => exact absurd ha List.not_mem_nil
  · refine .inr ⟨none, ?_⟩
    rw [hchain]
    by_contra hout
    rw [cell_formatted, if_neg fun heq => hout (List.mem_singleton.mpr heq)] at hused
    exact hused rfl
  · have hfree : (clusters g).filter (IsFree (formatted g).cell) = (clusters g).erase g.rootClus := by
      ext a
      rw [Finset.mem_filter, Finset.mem_erase, IsFree, cell_formatted]
      by_cases ha : a = g.rootClus <;> simp [ha]
    unfold freeCount
    rw [hfree, Finset.card_erase_of_mem hroot]
    rfl

/-- A volume of six clusters of four octets. -/
def tiny : Geometry where
  clusterSize := 4
  maxCluster := 7
  rootClus := 2
  clusterSize_pos := by decide
  maxCluster_lt := by decide

/-- Two files that take turns in growing, until the volume is full; then one of them is cut, and the other goes on. -/
def turns : List Request :=
  let now : FatDateTime := { date := 33, time := 0 }
  [.create (2, 64) [65] now, .create (2, 96) [66] now, .write (2, 64) .append [[1, 2, 3], [4, 5]] false now,
    .write (2, 96) .append [[11, 12, 13, 14, 15, 16]] false now, .write (2, 64) .append [[6, 7, 8, 9]] false now,
    .read (2, 64) 0 6, .read (2, 64) 6 6, .write (2, 96) (.writeAt 1) [[21, 22], [23, 24, 25, 26, 27, 28, 29]] false now,
    .read (2, 96) 0 16, .truncate (2, 64) 3 now, .write (2, 96) .append [[17, 18, 19]] false now, .read (2, 96) 0 16]

end Fat32Aux

/-- Every run of calls on a sound volume answers as a disk of plain contents does, and ends in a sound volume that holds what the
disk holds: whatever the clusters, the cursors and the calls that run out of space. -/
theorem files_refine {g : Geometry} {lost : Finset Nat} {v : FatVolume} (h : Sound g lost v) (requests : List Request) :
    Mealy.outputs (Client.step g) ⟨v, fun _ => {}⟩ requests = Mealy.outputs (Disk.step g) (v.disk g) requests ∧
    (Mealy.final (Client.step g) ⟨v, fun _ => {}⟩ requests).volume.disk g = Mealy.final (Disk.step g) (v.disk g) requests ∧
    Sound g lost (Mealy.final (Client.step g) ⟨v, fun _ => {}⟩ requests).volume := by
  have hstart : Fat32Aux.Valid g lost ⟨v, fun _ => {}⟩ := ⟨h, fun slot => Fat32Aux.fresh_none g v slot⟩
  have hstep (c : Client) (d : Disk) (request : Request) (hr : Fat32Aux.Valid g lost c ∧ c.volume.disk g = d) (_ : True) :
      (Fat32Aux.Valid g lost (c.step g request).1 ∧ (c.step g request).1.volume.disk g = (d.step g request).1) ∧
      (c.step g request).2 = (d.step g request).2 := by
    obtain ⟨hvalid, rfl⟩ := hr
    have hagrees := Fat32Aux.step_agrees hvalid request
    exact ⟨⟨hagrees.valid, hagrees.disk⟩, hagrees.answer⟩
  obtain ⟨⟨hvalid, hdisk⟩, hanswers⟩ := Mealy.simulation (G := fun _ _ => True) hstep ⟨hstart, rfl⟩
    (Mealy.along_of_forall (fun _ _ => trivial) _ requests)
  exact ⟨hanswers, hdisk, hvalid.sound⟩

theorem files_refine_tiny : Mealy.outputs (Client.step Fat32Aux.tiny) ⟨Fat32Aux.formatted Fat32Aux.tiny, fun _ => {}⟩ Fat32Aux.turns =
    [.done, .done, .done, .done, .done, .bytes [1, 2, 3, 4, 5, 6], .bytes [7, 8, 9], .failed .noFreeSpace,
      .bytes [11, 21, 22, 23, 24, 25], .done, .done, .bytes [11, 21, 22, 23, 24, 25, 17, 18, 19]] :=
  (files_refine (Fat32Aux.sound_formatted (by decide)) Fat32Aux.turns).1.trans (by decide +kernel)

end Ratputer.Fat32
