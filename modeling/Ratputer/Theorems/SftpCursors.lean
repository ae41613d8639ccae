import Ratputer.Lemmas.SftpTwins
import Ratputer.Theorems.SftpRefusals

/-!
# Cached cursors are transparent

A session answers as one that keeps no cursors, as long as no request takes a file away from under a cursor: removes or renames a
file of which one is kept, or changes it under a path that the invalidation does not recognise.
-/

namespace Ratputer

open Effect

variable {V : Type} {F : Fat V} {Good : V → Prop}

/-- Forgetting twice forgets no more. -/
theorem Handle.forget_forget (handle : Handle F) : handle.forget.forget = handle.forget := by
  cases handle <;> rfl

/-- The same of a server. -/
theorem Server.forget_forget (s : Server F) : s.forget.forget = s.forget := by
  unfold forget
  dsimp only
  congr 1
  · rw [Option.map_map]
    rfl
  · funext slot
    rw [Option.map_map]
    congr 1
    funext handle
    exact handle.forget_forget

/-- The worlds differ in cursors only; those of the first are good. -/
structure Kin (Good : V → Prop) (w w' : World F) : Prop where
  volume : w'.volume = w.volume
  server : w'.server.forget = w.server.forget
  fresh : w.FreshBut Good fun _ => False

namespace Kin

variable {w w' : World F}

/-- Twins are kin. -/
theorem of_twins (h : Twins Good w w') : Kin Good w w' := ⟨h.volume, by rw [h.server, Server.forget_forget], h.fresh⟩

/-- A change of the server that leaves the open files and the growing one alone. -/
theorem update (h : Kin Good w w') {f : Server F → Server F} (hforget : ∀ s : Server F, (f s).forget = f s.forget)
    (hopened : ∀ s file, (f s).Opened file → s.Opened file) (hresize : ∀ s, (f s).resize = s.resize) :
    Kin Good { w with server := f w.server } { w' with server := f w'.server } := by
  refine ⟨h.volume, by rw [hforget, hforget, h.server], h.fresh.update (fun file hfile => ?_) fun job hjob => ?_⟩
  · exact .inr (.inr ⟨hopened _ file hfile, id⟩)
  · exact .inr ((hresize _).symm.trans hjob)

/-- Kin that end are kin. -/
theorem setFatal (h : Kin Good w w') : Kin Good w.setFatal w'.setFatal :=
  h.update (f := fun s => { s with fatal := true }) (fun _ => rfl) (fun _ _ hfile => hfile) fun _ => rfl

/-- Kin that queue the same reply are kin. -/
theorem emit (h : Kin Good w w') (bytes : List UInt8) : Kin Good (w.emit bytes) (w'.emit bytes) :=
  h.update (f := fun s => { s with out := s.out ++ bytes }) (fun _ => rfl) (fun _ _ hfile => hfile) fun _ => rfl

end Kin

/-- A chunk of a WRITE goes through, and a file that is open by another path keeps a cursor on its entry. -/
def World.Overwrites (w : World F) (stream : WriteStream) (payload : List UInt8) : Prop :=
  ∃ file entry cursor v, w.server.handles stream.slot = some (.file file) ∧
    F.found w.volume file.parent file.leaf = some entry ∧ entry.readOnly = false ∧
    (let offset := if file.appendMode then entry.len else stream.offset
     let start := if entry.len < offset then entry.len else offset
     let data := if entry.len < offset then List.replicate (min (offset - entry.len) WRITE_CHUNK) 0 else payload
     F.writeTo entry start data w.volume = .ok (some cursor) v) ∧
    w.server.Strands (fun parent leaf => F.found w.volume parent leaf = some entry) fun other =>
      samePath file.parent file.leaf other.parent other.leaf = true

/-- A chunk of a growing SETSTAT goes through, and a file that is open by another path keeps a cursor on its entry. -/
def World.Outgrows (w : World F) (job : ResizeJob F) : Prop :=
  ∃ entry cursor v, F.found w.volume job.file.parent job.file.leaf = some entry ∧ entry.readOnly = false ∧
    entry.len < job.attrs.size.getD 0 ∧
    F.writeTo entry entry.len (List.replicate (min (job.attrs.size.getD 0 - entry.len) WRITE_CHUNK) 0) w.volume =
      .ok (some cursor) v ∧
    w.server.Strands (fun parent leaf => F.found w.volume parent leaf = some entry) fun other =>
      samePath other.parent other.leaf job.file.parent job.file.leaf = true

namespace CursorAux

variable {w w' : World F}

/-- A slot holds a file in both worlds, or in neither. -/
theorem slot_cases (h : Twins Good w w') (slot : Slot) :
    (∃ file, w.server.handles slot = some (.file file) ∧ w'.server.handles slot = some (.file file.forget) ∧ file.Fresh w.volume) ∨
      (∀ file, w.server.handles slot ≠ some (.file file)) ∧ ∀ file, w'.server.handles slot ≠ some (.file file) := by
  have hhandles := h.handles slot
  cases hslot : w.server.handles slot with
  | none =>
    rw [hslot] at hhandles
    exact .inr ⟨nofun, fun file hfile => nomatch hhandles.symm.trans hfile⟩
  | some handle =>
    rw [hslot] at hhandles
    cases handle with
    | dir dir => exact .inr ⟨nofun, fun file hfile => nomatch hhandles.symm.trans hfile⟩
    | file file => exact .inl ⟨file, rfl, hhandles, (h.fresh.opened file ⟨slot, hslot⟩).resolve_left id⟩

/-- A slot holds the file after card I/O on it. -/
def store (w : World F) (slot : Slot) (r : FileHandle F × V) : World F :=
  { server := { w.server with handles := Function.update w.server.handles slot (some (.file r.1)) }, volume := r.2 }

/-- Card I/O on the file of a slot runs on that file and puts it back. -/
theorem onFile_eq {α : Type} {slot : Slot} {status : Status} {op : FileM F α} {file : FileHandle F}
    (h : w.server.handles slot = some (.file file)) : onFile slot status op w =
      match op (file, w.volume) with
      | .ok a r => .ok a (store w slot r)
      | .error e r => .error e (store w slot r) := by
  unfold onFile
  simp only [h]
  rfl

/-- Without a file in the slot it is answered with its status. -/
theorem onFile_none {α : Type} {slot : Slot} {status : Status} {op : FileM F α}
    (h : ∀ file, w.server.handles slot ≠ some (.file file)) : onFile slot status op w = .error status w := by
  unfold onFile
  split
  · exact absurd ‹_› (h _)
  · rfl

/-- A file that is put back may forget first. -/
theorem store_forget (w : World F) (slot : Slot) (file : FileHandle F) (v : V) : (store w slot (file, v)).server.forget =
    { w.server.forget with handles := Function.update w.server.forget.handles slot (some (.file file.forget)) } := by
  have hhandles := w.server.forget_update slot (some (.file file))
  exact congrArg (fun handles => { w.server.forget with handles }) hhandles

/-- Stored files that differ in cursors only. -/
theorem forget_store (h : Twins Good w w') (slot : Slot) {file file' : FileHandle F} (hforget : file'.forget = file.forget) (v : V) :
    (store w' slot (file', v)).server.forget = (store w slot (file, v)).server.forget := by
  rw [store_forget, store_forget, hforget, (Kin.of_twins h).server]

/-- Card I/O on a slot that spares all files. -/
theorem kin_store (h : Twins Good w w') (slot : Slot) {file file' : FileHandle F} {v : V} (hforget : file'.forget = file.forget)
    (hfresh : file.Fresh v) (hspares : F.Spares Good w.volume v fun _ _ => True) :
    Kin Good (store w slot (file, v)) (store w' slot (file', v)) := by
  refine ⟨rfl, forget_store h slot hforget v, (h.fresh.spared_all hspares).good, fun opened hopened => .inr ?_, ?_⟩
  · obtain ⟨i, hi⟩ := hopened
    unfold store at hi
    dsimp only at hi
    by_cases heq : i = slot
    · rw [heq, Function.update_self] at hi
      injection hi with hi
      injection hi with hi
      exact hi ▸ hfresh
    · rw [Function.update_of_ne heq] at hi
      exact ((h.fresh.spared_all hspares).opened opened ⟨i, hi⟩).resolve_left id
  · exact (h.fresh.spared_all hspares).resize

/-- A chunk of a `DATA` reply. -/
theorem kin_continueRead (law : Cursors F Good) (h : Twins Good w w') (mounted : Bool) :
    Kin Good (w.continueRead mounted) (w'.continueRead mounted) := by
  have hstream : w'.server.readStream = w.server.readStream := by rw [h.server]; rfl
  unfold World.continueRead
  rw [hstream]
  cases w.server.readStream with
  | none => exact .of_twins h
  | some stream =>
    have hdrop : Twins Good { w with server := { w.server with readStream := none } }
        { w' with server := { w'.server with readStream := none } } :=
      h.update_plain (f := fun s => { s with readStream := none }) (fun _ => rfl) (fun _ _ hfile => hfile) fun _ => rfl
    cases mounted with
    | false => exact (Kin.of_twins hdrop).setFatal
    | true =>
      simp only [if_true]
      generalize ({ w with server := { w.server with readStream := none } } : World F) = t at hdrop ⊢
      generalize ({ w' with server := { w'.server with readStream := none } } : World F) = t' at hdrop ⊢
      have hgood := hdrop.fresh.good
      rcases slot_cases hdrop stream.slot with ⟨file, hslot, hslot', hfresh⟩ | ⟨hnone, hnone'⟩
      swap
      · rw [onFile_none hnone, onFile_none hnone']
        exact (Kin.of_twins hdrop).setFatal
      rw [onFile_eq hslot, onFile_eq hslot', hdrop.volume]
      rcases readChunk_forget law hgood hfresh stream.offset (min stream.remaining IO_CHUNK) with
        ⟨bytes, file₁, file₂, hrun, hrun', hforget, hfresh₁⟩ | ⟨status, file₁, file₂, hrun, hrun', hforget, hfresh₁⟩
      · have hkin := kin_store hdrop stream.slot hforget hfresh₁ (.refl hgood _)
        rw [hrun, hrun']
        dsimp only
        split
        · exact hkin.setFatal
        · exact hkin.update (f := fun s => { s with
            out := s.out ++ bytes
            readStream := if 0 < stream.remaining - bytes.length then some { stream with
              offset := stream.offset + bytes.length
              remaining := stream.remaining - bytes.length } else none }) (fun _ => rfl) (fun _ _ hfile => hfile) fun _ => rfl
      · have hkin := kin_store hdrop stream.slot hforget hfresh₁ (.refl hgood _)
        rw [hrun, hrun']
        exact hkin.setFatal

/-- Dropping cursors is nothing to a server that has forgotten. -/
theorem forget_invalidateWritten (s : Server F) (slot : Slot) : (s.invalidateWritten slot).forget = s.forget := by
  unfold Server.invalidateWritten
  split
  · unfold Server.forget
    dsimp only
    congr 1
    funext i
    cases hi : s.handles i with
    | none => rfl
    | some handle =>
      cases handle with
      | dir dir => rfl
      | file other =>
        dsimp only
        split
        · rfl
        · split <;> rfl
  · rfl

/-- A chunk has been written through a slot, and the cursors of its path are dropped. -/
theorem kin_written (h : Twins Good w w') (hresize : w.server.resize = none) {slot : Slot} {offset : Nat} {data : List UInt8}
    {file file₁ file₂ : FileHandle F} {v : V} (hforget : file₂.forget = file₁.forget)
    (hwrote : Wrote Good offset data file file₁ w.volume v)
    (hcalm : ∀ entry cursor, F.found w.volume file.parent file.leaf = some entry → entry.readOnly = false →
      F.writeTo entry offset data w.volume = .ok (some cursor) v →
      ¬w.server.Strands (fun parent leaf => F.found w.volume parent leaf = some entry) fun other =>
        samePath file.parent file.leaf other.parent other.leaf = true) :
    Kin Good { store w slot (file₁, v) with server := (store w slot (file₁, v)).server.invalidateWritten slot }
      { store w' slot (file₂, v) with server := (store w' slot (file₂, v)).server.invalidateWritten slot } := by
  obtain ⟨entry, cursor, hfound, hwritable, hwrite, hspares⟩ := hwrote.target
  have hstruck := h.struck hspares hresize (hcalm entry cursor hfound hwritable hwrite)
  refine ⟨rfl, ?_, hspares.good, fun opened hopened => .inr ?_, ?_⟩
  · rw [forget_invalidateWritten, forget_invalidateWritten]
    exact forget_store h slot hforget v
  · obtain ⟨i, hi⟩ := hopened
    have hslot : (store w slot (file₁, v)).server.handles slot = some (.file file₁) := Function.update_self ..
    unfold Server.invalidateWritten at hi
    simp only [hslot] at hi
    by_cases heq : i = slot
    · subst heq
      rw [hslot] at hi
      simp only [if_true] at hi
      injection hi with hi
      injection hi with hi
      exact hi ▸ ⟨nofun, hwrote.fresh.append⟩
    · have hother : (store w slot (file₁, v)).server.handles i = w.server.handles i := Function.update_of_ne heq _ _
      rw [hother, hwrote.samePath.1, hwrote.samePath.2] at hi
      cases hkept : w.server.handles i with
      | none => rw [hkept] at hi; nomatch hi
      | some handle =>
        cases handle with
        | dir dir => rw [hkept] at hi; nomatch hi
        | file other =>
          rw [hkept] at hi
          simp only [heq, if_false] at hi
          split at hi
          · injection hi with hi
            injection hi with hi
            exact hi ▸ other.bare_forget.fresh v
          · rename_i hpath
            injection hi with hi
            injection hi with hi
            exact hi ▸ (hstruck.fresh.opened other ⟨i, hkept⟩).resolve_left hpath
  · intro job hjob
    unfold Server.invalidateWritten at hjob
    split at hjob
    · nomatch hresize.symm.trans hjob
    · nomatch hresize.symm.trans hjob

/-- A chunk for a slot that holds no file. -/
theorem writePayload_none {stream : WriteStream} (h : ∀ file, w.server.handles stream.slot ≠ some (.file file))
    (payload : List UInt8) : writePayload stream payload true w = (w, some (.failure "Invalid handle"), true) := by
  unfold writePayload
  simp only [Bool.not_true, Bool.false_eq_true, if_false]

/-- A chunk for a slot that holds a file. -/
theorem writePayload_file (law : Cursors F Good) {stream : WriteStream} {file : FileHandle F}
    (h : w.server.handles stream.slot = some (.file file)) (payload : List UInt8) : writePayload stream payload true w =
      match F.found w.volume file.parent file.leaf with
      | none => (w, some .noSuchFile, false)
      | some entry =>
        let offset := if file.appendMode then entry.len else stream.offset
        let start := if entry.len < offset then entry.len else offset
        let data := if entry.len < offset then List.replicate (min (offset - entry.len) WRITE_CHUNK) 0 else payload
        match writeChunk start data (file, w.volume) with
        | .ok _ r =>
          ({ store w stream.slot r with server := (store w stream.slot r).server.invalidateWritten stream.slot }, none,
            !decide (entry.len < offset))
        | .error status r => (store w stream.slot r, some status, !decide (entry.len < offset)) := by
  have hlook := law.findIn file.parent file.leaf w.volume
  unfold writePayload Fat.found
  simp only [Bool.not_true, Bool.false_eq_true, if_false, h]
  cases hfind : F.findIn file.parent file.leaf w.volume with
  | error e v =>
    obtain rfl : v = w.volume := (hlook.error hfind).1
    rfl
  | ok found v =>
    obtain rfl : v = w.volume := (hlook.ok hfind).1
    cases found with
    | none => rfl
    | some entry =>
      dsimp only
      rw [onFile_eq (w := { w with volume := w.volume }) h]
      simp only [decide_eq_true_eq]
      generalize writeChunk _ _ (file, w.volume) = r
      cases r <;> rfl

/-- A chunk of a WRITE's payload. -/
theorem kin_writePayload (law : Cursors F Good) (h : Twins Good w w') (hresize : w.server.resize = none) (stream : WriteStream)
    (payload : List UInt8) (mounted : Bool) (hcalm : mounted = true → ¬w.Overwrites stream payload) :
    Kin Good (writePayload stream payload mounted w).1 (writePayload stream payload mounted w').1 ∧
      (writePayload stream payload mounted w').2 = (writePayload stream payload mounted w).2 := by
  cases mounted with
  | false => exact ⟨.of_twins h, rfl⟩
  | true =>
    rcases slot_cases h stream.slot with ⟨file, hslot, hslot', hfresh⟩ | ⟨hnone, hnone'⟩
    swap
    · rw [writePayload_none hnone, writePayload_none hnone']
      exact ⟨.of_twins h, rfl⟩
    rw [writePayload_file law hslot, writePayload_file law hslot', h.volume]
    have hpath : F.found w.volume file.forget.parent file.forget.leaf = F.found w.volume file.parent file.leaf := rfl
    rw [hpath]
    cases hfound : F.found w.volume file.parent file.leaf with
    | none => exact ⟨.of_twins h, rfl⟩
    | some entry =>
      have hmode : file.forget.appendMode = file.appendMode := rfl
      simp only [hmode]
      generalize hoffset : (if file.appendMode = true then entry.len else stream.offset) = offset
      generalize hstart : (if entry.len < offset then entry.len else offset) = start
      generalize hdata : (if entry.len < offset then List.replicate (min (offset - entry.len) WRITE_CHUNK) 0 else payload) = data
      rcases writeChunk_forget law h.fresh.good hfresh start data with
        ⟨file₁, file₂, v, hrun, hrun', hforget, hwrote⟩ | ⟨status, file₁, file₂, v, hrun, hrun', hforget, hfresh₁, hspares⟩
      · rw [hrun, hrun']
        refine ⟨kin_written h hresize hforget hwrote fun entry' cursor hfound' hwritable hwrite hstrands => hcalm rfl ?_, rfl⟩
        obtain rfl : entry = entry' := Option.some.inj (hfound.symm.trans hfound')
        exact ⟨file, entry, cursor, v, hslot, hfound, hwritable, by simp only [hoffset, hstart, hdata]; exact hwrite, hstrands⟩
      · rw [hrun, hrun']
        exact ⟨kin_store h stream.slot hforget hfresh₁ hspares, rfl⟩

/-- Card I/O on the file of a growing SETSTAT. -/
theorem onJob_eq (job : ResizeJob F) (op : FileM F Unit) (w : World F) : onJob job op w =
    match op (job.file, w.volume) with
    | .ok _ r => .ok { job with file := r.1 } { w with volume := r.2 }
    | .error status r => .error status { w with volume := r.2 } := rfl

/-- What two runs of a chunk of a growing SETSTAT come to. -/
def ResizedAlike (Good : V → Prop) : EStateM.Result Status (World F) (ResizeJob F × Bool) →
    EStateM.Result Status (World F) (ResizeJob F × Bool) → Prop
  | .ok (job, done) w, .ok (job', done') w' =>
    done' = done ∧ job'.forget = job.forget ∧ Twins Good w w' ∧ job.Valid ∧ job.file.Fresh w.volume
  | .error status w, .error status' w' => status' = status ∧ Twins Good w w'
  | _, _ => False

/-- A chunk of a growing SETSTAT, or its metadata. -/
theorem resizeChunk_forget (law : Cursors F Good) (h : Twins Good w w') (hresize : w.server.resize = none) {job : ResizeJob F}
    (hvalid : job.Valid) (hfresh : job.file.Fresh w.volume) (ctx : Ctx) (hcalm : ¬w.Outgrows job) :
    ResizedAlike Good (resizeChunk job ctx w) (resizeChunk job.forget ctx w') := by
  have hsplit (w : World F) : Looks (check (splitLast job.components .noSuchFile)) w (.ok (job.file.leaf, job.file.parent)) := by
    rw [hvalid, ChunkAux.splitLast_append]
    exact looks_check _ w
  have hsplit' : Looks (check (splitLast job.forget.components .noSuchFile)) w' (.ok (job.file.leaf, job.file.parent)) := hsplit w'
  have hentry := looks_findEntry law job.file.parent job.file.leaf w
  have hentry' := looks_findEntry law job.file.parent job.file.leaf w'
  rw [h.volume] at hentry'
  unfold resizeChunk
  rw [bind_of_ok (hsplit w), bind_of_ok hsplit']
  dsimp only
  cases hfound : F.found w.volume job.file.parent job.file.leaf with
  | none =>
    rw [hfound] at hentry hentry'
    rw [bind_of_error hentry, bind_of_error hentry']
    exact ⟨rfl, h⟩
  | some entry =>
    rw [hfound] at hentry hentry'
    rw [bind_of_ok hentry, bind_of_ok hentry']
    have htarget : job.forget.attrs = job.attrs := rfl
    rw [htarget]
    split
    · rename_i hshort
      have hkept : job.forget.file = job.file.forget := rfl
      rcases writeChunk_forget law h.fresh.good hfresh entry.len
          (List.replicate (min (job.attrs.size.getD 0 - entry.len) WRITE_CHUNK) 0) with
        ⟨file₁, file₂, v, hrun, hrun', hforget, hwrote⟩ | ⟨status, file₁, file₂, v, hrun, hrun', hforget, hfresh₁, hspares⟩
      · have hjob : onJob job (writeChunk entry.len (List.replicate (min (job.attrs.size.getD 0 - entry.len) WRITE_CHUNK) 0)) w =
            .ok { job with file := file₁ } { w with volume := v } := by rw [onJob_eq, hrun]
        have hjob' : onJob job.forget
            (writeChunk entry.len (List.replicate (min (job.attrs.size.getD 0 - entry.len) WRITE_CHUNK) 0)) w' =
            .ok { job.forget with file := file₂ } { w' with volume := v } := by rw [onJob_eq, hkept, h.volume, hrun']
        rw [bind_of_ok hjob, bind_of_ok hjob']
        obtain ⟨entry', cursor, hfound', hwritable, hwrite, hspares⟩ := hwrote.target
        obtain rfl : entry = entry' := Option.some.inj (hfound.symm.trans hfound')
        have hstruck : TwinsBut Good (fun file => samePath file.parent file.leaf job.file.parent job.file.leaf = true)
            { w with volume := v } { w' with volume := v } :=
          h.struck hspares hresize fun hstrands => hcalm ⟨entry, cursor, v, hfound, hwritable, hshort, hwrite, hstrands⟩
        refine ⟨rfl, ?_, hstruck.invalidateFile, ?_, hwrote.fresh⟩
        · exact congrArg (fun file => { job with file }) hforget
        · show job.components = file₁.parent ++ [file₁.leaf]
          rw [hwrote.samePath.1, hwrote.samePath.2]
          exact hvalid
      · have hjob : onJob job (writeChunk entry.len (List.replicate (min (job.attrs.size.getD 0 - entry.len) WRITE_CHUNK) 0)) w =
            .error status { w with volume := v } := by rw [onJob_eq, hrun]
        have hjob' : onJob job.forget
            (writeChunk entry.len (List.replicate (min (job.attrs.size.getD 0 - entry.len) WRITE_CHUNK) 0)) w' =
            .error status { w' with volume := v } := by rw [onJob_eq, hkept, h.volume, hrun']
        rw [bind_of_error hjob, bind_of_error hjob']
        exact ⟨rfl, h.spared_all hspares⟩
    · obtain ⟨r, v, hspares, hgives, _⟩ :=
        applyMetadata_spares law h.fresh.good (Fat.Named.known ⟨_, _, hfound⟩) job.attrs ctx.clock
      have hrun := hgives w.server
      have hrun' := hgives w'.server
      rw [← h.volume] at hrun'
      cases r with
      | error status =>
        rw [bind_of_error hrun, bind_of_error hrun']
        exact ⟨rfl, h.spared_all hspares⟩
      | ok _ =>
        rw [bind_of_ok hrun, bind_of_ok hrun']
        have hspared := h.spared_all hspares
        exact ⟨rfl, rfl, hspared.weaken.invalidateFile, hvalid, hfresh.kept (hspares.keeps _ _ trivial)⟩

/-- A step of a growing SETSTAT. -/
theorem kin_continueResize (law : Cursors F Good) (h : Twins Good w w') {job : ResizeJob F} (hjob : w.server.resize = some job)
    (mounted : Bool) (ctx : Ctx) (hcalm : mounted = true → ¬w.Outgrows job) :
    Kin Good (w.continueResize mounted ctx) (w'.continueResize mounted ctx) := by
  have hjob' : w'.server.resize = some job.forget := by
    rw [h.server]
    exact congrArg (Option.map ResizeJob.forget) hjob
  have hdrop : Twins Good w.dropResize w'.dropResize :=
    h.update (f := fun s => { s with resize := none }) rfl (fun file hfile => .inr (.inr ⟨hfile, id⟩)) nofun
  obtain ⟨hvalid, hfresh⟩ := h.fresh.resize job hjob
  unfold World.continueResize
  simp only [hjob, hjob']
  cases mounted with
  | false => exact (Kin.of_twins hdrop).emit _
  | true =>
    have hchunk := resizeChunk_forget law hdrop rfl hvalid hfresh ctx (hcalm rfl)
    simp only [if_true]
    cases hrun : resizeChunk job ctx w.dropResize with
    | error status w₁ =>
      cases hrun' : resizeChunk job.forget ctx w'.dropResize with
      | ok _ _ =>
        rw [hrun, hrun'] at hchunk
        exact hchunk.elim
      | error status' w₁' =>
        rw [hrun, hrun'] at hchunk
        obtain ⟨rfl, htwins⟩ := hchunk
        unfold World.dropResize at hrun hrun'
        simp only [hrun, hrun']
        exact (Kin.of_twins htwins).emit _
    | ok p w₁ =>
      cases hrun' : resizeChunk job.forget ctx w'.dropResize with
      | error _ _ =>
        rw [hrun, hrun'] at hchunk
        exact hchunk.elim
      | ok p' w₁' =>
        rw [hrun, hrun'] at hchunk
        obtain ⟨job₁, done⟩ := p
        obtain ⟨job₁', done'⟩ := p'
        obtain ⟨rfl, hforget, htwins, hvalid₁, hfresh₁⟩ := hchunk
        unfold World.dropResize at hrun hrun'
        simp only [hrun, hrun']
        cases done' with
        | true => exact (Kin.of_twins htwins).emit _
        | false =>
          have hkin := Kin.of_twins htwins
          refine ⟨hkin.volume, ?_, hkin.fresh.good, hkin.fresh.opened, fun job' heq => ?_⟩
          · calc ({ w₁'.server with resize := some job₁' } : Server F).forget
              _ = { w₁'.server.forget with resize := some job₁'.forget } := rfl
              _ = { w₁.server.forget with resize := some job₁.forget } := by rw [hkin.server, hforget]
          · exact Option.some.inj heq ▸ ⟨hvalid₁, hfresh₁⟩

end CursorAux

/-! ## Sessions -/

namespace Sftp

/-- The session with no cursor kept. -/
def forget (s : Sftp F) : Sftp F := { s with server := s.server.forget }

/-- One event of a session that keeps no cursors from one event to the next. -/
def servePlain (s : Sftp F) (e : Event) : Sftp F × Seen := s.forget.serve e

/-- The payload that the next chunk of a WRITE takes. -/
def nextChunk (s : Sftp F) (stream : WriteStream) : List UInt8 :=
  s.input.take (min (min s.input.length stream.remaining) WRITE_CHUNK)

/-- A step strands a cursor: its entry is removed, renamed, cut or written to by a path that the invalidation does not recognise. -/
inductive Disturbs (s : Sftp F) (ctx : Ctx) : Prop
  | request {id : Nat} {rest : List UInt8} (hp : s.AtPacket) (hbudget : s.cardBudget = true)
      (hkind : kindOf s.input ≠ FXP_WRITE) (hlength : u32At s.input 0 ≤ MAX_REQUEST)
      (hcomplete : 4 + u32At s.input 0 ≤ s.input.length)
      (hid : Reader.u32 ((s.input.take (4 + u32At s.input 0)).drop 5) = some (id, rest))
      (h : s.toWorld.Disturbs ctx (kindOf s.input) rest)
  | payload {stream : WriteStream} (hlive : s.server.fatal = false) (hdrained : s.server.out = [])
      (hbudget : s.cardBudget = true) (hstream : s.server.writeStream = some stream) (hgood : stream.failed = none)
      (hready : 0 < stream.remaining ∧ min stream.remaining WRITE_CHUNK ≤ s.input.length)
      (h : s.toWorld.Overwrites stream (s.nextChunk stream))
  | resize {job : ResizeJob F} (hlive : s.server.fatal = false) (hdrained : s.server.out = []) (hbudget : s.cardBudget = true)
      (hjob : s.server.resize = some job) (h : s.toWorld.Outgrows job)

/-- The event is no step that strands a cursor. -/
def Undisturbed (s : Sftp F) (e : Event) : Prop := ∀ ctx, e = .step true ctx → ¬s.Disturbs ctx

/-- The sessions differ in cursors only; those of the first are good. -/
structure Kin (Good : V → Prop) (s t : Sftp F) : Prop where
  world : Ratputer.Kin Good s.toWorld t.toWorld
  input : t.input = s.input
  skip : t.skip = s.skip
  cardBudget : t.cardBudget = s.cardBudget

namespace TransparentAux

open CursorAux

variable {s t : Sftp F}

/-- Sessions are kin if their worlds are and the rest is the same. -/
theorem kin_of_world {w w' : World F} (h : Ratputer.Kin Good w w') (input : List UInt8) (skip : Nat) (cardBudget : Bool) :
    Kin Good ({ toWorld := w, input, skip, cardBudget } : Sftp F) { toWorld := w', input, skip, cardBudget } :=
  ⟨h, rfl, rfl, rfl⟩

/-- A session beside itself with its cursors forgotten. -/
theorem twins_forget (h : s.FreshBut Good fun _ => False) : Twins Good s.toWorld s.forget.toWorld := ⟨rfl, rfl, h⟩

/-- A WRITE is checked alike. -/
theorem checkWrite_forget (s : Sftp F) (token : List UInt8) (offset dataLen : Nat) :
    s.forget.checkWrite token offset dataLen = s.checkWrite token offset dataLen := by
  have hfile (slot : Slot) : s.server.forget.file slot = (s.server.file slot).map FileHandle.forget := by
    unfold Server.file Server.forget
    dsimp only
    cases s.server.handles slot with
    | none => rfl
    | some handle => cases handle <;> rfl
  have hslot : s.server.forget.slotOf token = s.server.slotOf token := s.server.slotOf_forget token
  unfold checkWrite forget
  simp only [hslot, hfile]
  cases s.server.slotOf token with
  | error status => rfl
  | ok slot =>
    show (s.server.file slot).map FileHandle.forget >>= _ = s.server.file slot >>= _
    cases s.server.file slot <;> rfl

/-- The steps lead to sessions that differ in cursors only, and both do something or neither does. -/
def KinStep (Good : V → Prop) (r r' : Sftp F × Bool) : Prop := Kin Good r.1 r'.1 ∧ r'.2 = r.2

/-- Both branches keep kin, each under its condition. -/
theorem kinStep_ite {c : Prop} [Decidable c] {r r' q q' : Sftp F × Bool} (h : c → KinStep Good r r') (h' : ¬c → KinStep Good q q') :
    KinStep Good (if c then r else q) (if c then r' else q') := by
  split
  · exact h ‹_›
  · exact h' ‹_›

/-- Payload is taken off alike. -/
theorem kin_advanceWrite {w w' : World F} (h : Ratputer.Kin Good w w') (input : List UInt8) (skip : Nat) (cardBudget : Bool)
    (stream : WriteStream) (count : Nat) :
    Kin Good (({ toWorld := w, input, skip, cardBudget } : Sftp F).advanceWrite stream count)
      (({ toWorld := w', input, skip, cardBudget } : Sftp F).advanceWrite stream count) := by
  have hkept (kept : Option WriteStream) : Ratputer.Kin Good { w with server := { w.server with writeStream := kept } }
      { w' with server := { w'.server with writeStream := kept } } :=
    h.update (f := fun s => { s with writeStream := kept }) (fun _ => rfl) (fun _ _ hfile => hfile) fun _ => rfl
  unfold advanceWrite
  dsimp only
  split
  · exact kin_of_world ((hkept none).emit _) _ _ _
  · exact kin_of_world (hkept _) _ _ _

/-- A chunk of a WRITE. -/
theorem kin_continueWrite (law : Cursors F Good) (h : s.FreshBut Good fun _ => False) (mounted : Bool) (ctx : Ctx)
    (hcalm : mounted = true → ¬s.Disturbs ctx) (hlive : s.server.fatal = false) (hdrained : s.server.out = [])
    (hresize : s.server.resize = none) : KinStep Good (s.continueWrite mounted) (s.forget.continueWrite mounted) := by
  have htwins := twins_forget h
  have hidle : KinStep Good (s, false) (s.forget, false) := ⟨⟨.of_twins htwins, rfl, rfl, rfl⟩, rfl⟩
  have hadvance (stream : WriteStream) (count : Nat) :
      KinStep Good (s.advanceWrite stream count, true) (s.forget.advanceWrite stream count, true) :=
    ⟨kin_advanceWrite (.of_twins htwins) _ _ _ stream count, rfl⟩
  unfold continueWrite
  cases hstream : s.server.writeStream with
  | none =>
    have hstream' : s.forget.server.writeStream = none := hstream
    simp only [hstream']
    exact hidle
  | some stream =>
    have hstream' : s.forget.server.writeStream = some stream := hstream
    simp only [hstream']
    refine kinStep_ite (fun _ => hadvance stream 0) fun hremaining => ?_
    refine kinStep_ite (c := min s.input.length stream.remaining = 0 ∨
      (min s.input.length stream.remaining < WRITE_CHUNK ∧ min s.input.length stream.remaining < stream.remaining))
      (fun _ => hidle) fun hready => ?_
    refine kinStep_ite (fun _ => hadvance stream _) fun hfailed => ?_
    refine kinStep_ite (c := (!s.cardBudget) = true) (fun _ => hidle) fun hbudget => ?_
    have hdrop : Twins Good { s.toWorld with server := { s.server with writeStream := none } }
        { s.forget.toWorld with server := { s.forget.server with writeStream := none } } :=
      htwins.update_plain (f := fun s => { s with writeStream := none }) (fun _ => rfl) (fun _ _ hfile => hfile) fun _ => rfl
    obtain ⟨hkin, hsame⟩ := kin_writePayload law hdrop hresize stream (s.nextChunk stream) mounted
      fun hmounted hoverwrites => hcalm hmounted (.payload hlive hdrained (by simpa using hbudget) hstream (by simpa using hfailed)
        (by omega) hoverwrites)
    generalize hrun : writePayload stream (s.nextChunk stream) mounted
      { s.toWorld with server := { s.server with writeStream := none } } = r at hkin hsame
    generalize hrun' : writePayload stream (s.nextChunk stream) mounted
      { s.forget.toWorld with server := { s.forget.server with writeStream := none } } = r' at hkin hsame
    obtain ⟨w₁, error, taken⟩ := r
    obtain ⟨w₁', error', taken'⟩ := r'
    injection hsame with herror htaken
    subst herror htaken
    have hinput : s.forget.input = s.input := rfl
    unfold nextChunk at hrun hrun'
    simp only [hinput, hrun, hrun']
    refine kinStep_ite (fun _ => ⟨kin_advanceWrite hkin _ _ _ _ _, rfl⟩) fun _ => ⟨kin_of_world ?_ _ _ _, rfl⟩
    exact hkin.update (f := fun s => { s with writeStream := some { stream with failed := error' } }) (fun _ => rfl)
      (fun _ _ hfile => hfile) fun _ => rfl

/-- The header of a WRITE. -/
theorem kin_beginWrite (h : s.FreshBut Good fun _ => False) (length : Nat) :
    KinStep Good (s.beginWrite length) (s.forget.beginWrite length) := by
  have htwins := twins_forget h
  have hkin := Kin.of_twins htwins
  have hidle : KinStep Good (s, false) (s.forget, false) := ⟨⟨hkin, rfl, rfl, rfl⟩, rfl⟩
  unfold beginWrite
  refine kinStep_ite (c := s.input.length < 13) (fun _ => hidle) fun _ => ?_
  refine kinStep_ite (c := 64 < u32At s.input 9) (fun _ => ⟨kin_of_world hkin.setFatal _ _ _, rfl⟩) fun _ => ?_
  refine kinStep_ite (c := s.input.length < (13 + u32At s.input 9 + 12) % USIZE) (fun _ => hidle) fun _ => ?_
  refine kinStep_ite (fun _ => ?_) fun _ => ⟨kin_of_world hkin.setFatal _ _ _, rfl⟩
  refine ⟨kin_of_world ?_ _ _ _, rfl⟩
  have hstream (header : WriteHeader) (input : List UInt8) :
      ({ s.forget with input } : Sftp F).writeStreamOf header = ({ s with input } : Sftp F).writeStreamOf header := by
    have hcheck := checkWrite_forget ({ s with input } : Sftp F) header.token header.offset header.dataLen
    change ({ s.forget with input } : Sftp F).checkWrite _ _ _ = _ at hcheck
    unfold writeStreamOf
    rw [hcheck]
  show Ratputer.Kin Good
    { s.toWorld with server := { s.server with writeStream := some (writeStreamOf { s with input := _ } _) } }
    { s.forget.toWorld with server := { s.forget.server with writeStream := some (writeStreamOf { s.forget with input := _ } _) } }
  rw [hstream]
  exact hkin.update (f := fun server => { server with writeStream := some _ }) (fun _ => rfl) (fun _ _ hfile => hfile) fun _ => rfl

/-- The next packet. -/
theorem kin_parseNext (law : Cursors F Good) (h : s.FreshBut Good fun _ => False) (mounted : Bool) (ctx : Ctx)
    (hcalm : mounted = true → ¬s.Disturbs ctx) (hp : s.AtPacket) :
    KinStep Good (s.parseNext mounted ctx) (s.forget.parseNext mounted ctx) := by
  have htwins := twins_forget h
  have hkin := Kin.of_twins htwins
  have hidle : KinStep Good (s, false) (s.forget, false) := ⟨⟨hkin, rfl, rfl, rfl⟩, rfl⟩
  unfold parseNext
  refine kinStep_ite (c := s.input.length < 5) (fun _ => hidle) fun _ => ?_
  refine kinStep_ite (c := u32At s.input 0 = 0) (fun _ => ⟨kin_of_world hkin.setFatal _ _ _, rfl⟩) fun _ => ?_
  refine kinStep_ite (c := kindOf s.input = FXP_WRITE) (fun _ => kin_beginWrite h _) fun hkind => ?_
  refine kinStep_ite (c := MAX_REQUEST < u32At s.input 0) (fun _ => ?_) fun hlength => ?_
  · refine kinStep_ite (c := s.input.length < 9) (fun _ => hidle) fun _ => ?_
    exact ⟨kin_of_world (hkin.emit _) _ _ _, rfl⟩
  refine kinStep_ite (c := s.input.length < 4 + u32At s.input 0) (fun _ => hidle) fun hcomplete => ?_
  refine kinStep_ite (c := (!s.cardBudget) = true) (fun _ => hidle) fun hbudget => ?_
  have hdispatch := htwins.dispatch law hp.resize (kindOf s.input) ((s.input.take (4 + u32At s.input 0)).drop 5) mounted ctx
    fun id rest hid hmounted hdisturbs => hcalm hmounted
      (.request hp (by simpa using hbudget) hkind (by omega) (by omega) hid hdisturbs)
  exact ⟨kin_of_world (.of_twins hdispatch) _ _ _, rfl⟩

/-- A step of the session, beside the same step without cursors. -/
theorem kin_step (law : Cursors F Good) (h : s.FreshBut Good fun _ => False) (mounted : Bool) (ctx : Ctx)
    (hcalm : mounted = true → ¬s.Disturbs ctx) : KinStep Good (s.step mounted ctx) (s.forget.step mounted ctx) := by
  have htwins := twins_forget h
  have hidle : KinStep Good (s, false) (s.forget, false) := ⟨⟨.of_twins htwins, rfl, rfl, rfl⟩, rfl⟩
  have hresize : s.forget.server.resize.isSome = s.server.resize.isSome := Option.isSome_map
  unfold step
  rw [hresize]
  refine kinStep_ite (c := s.server.fatal = true) (fun _ => hidle) fun hlive => ?_
  refine kinStep_ite (c := s.server.out ≠ []) (fun _ => hidle) fun hdrained => ?_
  refine kinStep_ite (fun hgrows => ?_) fun hgrows => ?_
  · refine kinStep_ite (c := (!s.cardBudget) = true) (fun _ => hidle) fun hbudget => ?_
    obtain ⟨job, hjob⟩ := Option.isSome_iff_exists.mp hgrows
    refine ⟨kin_of_world (kin_continueResize law htwins hjob mounted ctx fun hmounted houtgrows => hcalm hmounted ?_) _ _ _, rfl⟩
    exact .resize (by simpa using hlive) (not_not.mp hdrained) (by simpa using hbudget) hjob houtgrows
  refine kinStep_ite (c := s.server.readStream.isSome = true) (fun _ => ?_) fun hreads => ?_
  · refine kinStep_ite (c := (!s.cardBudget) = true) (fun _ => hidle) fun _ => ?_
    exact ⟨kin_of_world (kin_continueRead law htwins mounted) _ _ _, rfl⟩
  refine kinStep_ite (c := s.server.writeStream.isSome = true) (fun _ => ?_) fun hwrites => ?_
  · exact kin_continueWrite law h mounted ctx hcalm (by simpa using hlive) (not_not.mp hdrained) (by simpa using hgrows)
  refine kinStep_ite (c := 0 < s.skip) (fun _ => ?_) fun hskip => ?_
  · exact ⟨kin_of_world (.of_twins htwins) _ _ _, rfl⟩
  · refine kin_parseNext law h mounted ctx hcalm ⟨by simpa using hlive, not_not.mp hdrained, ?_, ?_, ?_, by omega⟩
    · simpa using hgrows
    · simpa using hreads
    · simpa using hwrites

/-- Kin have forgotten to the same. -/
theorem forget_eq (h : Kin Good s t) : t.forget = s.forget := by
  have hworld : t.forget.toWorld = s.forget.toWorld := by
    show ({ server := t.server.forget, volume := t.volume } : World F) = { server := s.server.forget, volume := s.volume }
    rw [h.world.server, h.world.volume]
  show ({ toWorld := t.forget.toWorld, input := t.input, skip := t.skip, cardBudget := t.cardBudget } : Sftp F) =
    { toWorld := s.forget.toWorld, input := s.input, skip := s.skip, cardBudget := s.cardBudget }
  rw [hworld, h.input, h.skip, h.cardBudget]

/-- An event of the session, beside the same event without cursors. -/
theorem kin_serve (law : Cursors F Good) (h : Kin Good s t) (e : Event) (hcalm : s.Undisturbed e) :
    Kin Good (s.serve e).1 (t.servePlain e).1 ∧ (s.serve e).2 = (t.servePlain e).2 := by
  unfold servePlain
  rw [forget_eq h]
  have hkin := Ratputer.Kin.of_twins (twins_forget h.world.fresh)
  cases e with
  | feed bytes => exact ⟨kin_of_world hkin _ _ _, rfl⟩
  | consume count =>
    refine ⟨kin_of_world ?_ _ _ _, rfl⟩
    exact hkin.update (f := fun s => { s with out := s.out.drop (min count s.out.length) }) (fun _ => rfl)
      (fun _ _ hfile => hfile) fun _ => rfl
  | beginPoll => exact ⟨kin_of_world hkin _ _ _, rfl⟩
  | step mounted ctx =>
    obtain ⟨hstep, hprogress⟩ := kin_step law h.world.fresh mounted ctx fun hmounted => hcalm ctx (hmounted ▸ rfl)
    refine ⟨hstep, ?_⟩
    show ({ progress := (s.step mounted ctx).2 } : Seen) = { progress := (s.forget.step mounted ctx).2 }
    rw [hprogress]

end TransparentAux

/-- As long as no step strands a cursor, a session answers as one that keeps no cursors, byte for byte, and both end in the same
state but for the cursors: the volume, the pending output and the end of the session are the same. -/
theorem cursors_transparent (law : Cursors F Good) {volume : V} (hgood : Good volume) (es : List Event)
    (h : Mealy.Along serve Undisturbed (new (F := F) volume) es) :
    Mealy.outputs serve (new (F := F) volume) es = Mealy.outputs servePlain (new (F := F) volume) es ∧
      (Mealy.final serve (new (F := F) volume) es).forget = (Mealy.final servePlain (new (F := F) volume) es).forget := by
  have hnew : Kin Good (new (F := F) volume) (new volume) := by
    refine ⟨⟨rfl, rfl, hgood, fun file hfile => ?_, nofun⟩, rfl, rfl, rfl⟩
    obtain ⟨_, hslot⟩ := hfile
    cases hslot
  have hstep (s t : Sftp F) (e : Event) (hst : Kin Good s t) (hcalm : s.Undisturbed e) :
      Kin Good (s.serve e).1 (t.servePlain e).1 ∧ (s.serve e).2 = (t.servePlain e).2 := TransparentAux.kin_serve law hst e hcalm
  obtain ⟨hkin, houtputs⟩ := Mealy.simulation hstep hnew h
  exact ⟨houtputs, (TransparentAux.forget_eq hkin).symm⟩

namespace TransparentAux

/-- The files of the volume in memory have identities of their own. -/
structure Distinct (v : Ram.Volume) : Prop where
  nodup : (v.files.map (·.id)).Nodup
  below : ∀ r ∈ v.files, r.id < v.nextId

/-- The in-memory driver finds a file where the volume has it. -/
theorem ram_found (v : Ram.Volume) (parent : List Str) (leaf : Str) : Ram.fat.found v parent leaf = ramEntryAt v parent leaf := by
  cases parent with
  | nil => rfl
  | cons component rest => rfl

/-- It names files of the root only. -/
theorem ram_named {v : Ram.Volume} {parent : List Str} {leaf : Str} {entry : FileEntry Nat}
    (h : Ram.fat.found v parent leaf = some entry) : parent = [] ∧ ∃ r, v.find leaf = some r ∧ r.entry = entry := by
  rw [ram_found, ramEntryAt] at h
  split at h
  · rename_i hroot
    exact ⟨hroot, Option.map_eq_some_iff.mp h⟩
  · cases h

/-- In the root it finds a file by its name. -/
theorem ram_found_root (v : Ram.Volume) (leaf : Str) : Ram.fat.found v [] leaf = (v.find leaf).map Ram.Record.entry := rfl

/-- A read cursor is good where it is the file's own place. -/
theorem ram_reads {v : Ram.Volume} {entry : FileEntry Nat} (offset : Nat) {cursor : Ram.Place} :
    Ram.fat.ReadsOn v entry offset cursor ↔ cursor = ⟨entry.identity, entry.len, offset⟩ := by
  show Ram.resume entry cursor v = .ok ⟨entry.identity, entry.len, offset⟩ v ↔ _
  unfold Ram.resume
  split
  · exact ⟨fun h => by injection h, fun h => by rw [h]⟩
  · rename_i hstale
    exact ⟨nofun, fun h => absurd ⟨by rw [h], by rw [h]⟩ hstale⟩

/-- An append cursor is good at the end of the file. -/
theorem ram_appends {v : Ram.Volume} {entry : FileEntry Nat} {cursor : Ram.Place} :
    Ram.fat.AppendsOn v entry cursor ↔ cursor = ⟨entry.identity, entry.len, entry.len⟩ := by
  show Ram.resumeAppend entry cursor v = .ok ⟨entry.identity, entry.len, entry.len⟩ v ↔ _
  unfold Ram.resumeAppend
  split
  · exact ram_reads entry.len
  · rename_i hplace
    exact ⟨nofun, fun h => absurd (by rw [h]) hplace⟩

/-- A file that keeps identity and size keeps its cursors. -/
theorem ram_keeps {v v' : Ram.Volume} {parent : List Str} {leaf : Str}
    (h : ∀ r, parent = [] → v.find leaf = some r →
      ∃ r', v'.find leaf = some r' ∧ r'.id = r.id ∧ r'.content.1.length = r.content.1.length) :
    Ram.fat.Keeps v v' parent leaf := by
  intro entry hfound
  obtain ⟨rfl, r, hr, rfl⟩ := ram_named hfound
  obtain ⟨r', hr', hid, hlen⟩ := h r rfl hr
  refine ⟨r'.entry, by rw [ram_found_root, hr']; rfl, hid, fun offset cursor hreads => ?_, fun cursor happends => ?_⟩
  · refine (ram_reads offset).mpr (((ram_reads offset).mp hreads).trans ?_)
    show (⟨r.id, r.content.1.length, offset⟩ : Ram.Place) = ⟨r'.id, r'.content.1.length, offset⟩
    rw [hid, hlen]
  · refine ram_appends.mpr ((ram_appends.mp happends).trans ?_)
    show (⟨r.id, r.content.1.length, r.content.1.length⟩ : Ram.Place) = ⟨r'.id, r'.content.1.length, r'.content.1.length⟩
    rw [hid, hlen]

/-- Files with one number are one. -/
theorem Distinct.eq_of_id {v : Ram.Volume} (h : Distinct v) {r r' : Ram.Record} (hr : r ∈ v.files) (hr' : r' ∈ v.files)
    (hid : r.id = r'.id) : r = r' := List.inj_on_of_nodup_map h.nodup hr hr' hid

/-- A change of a file's content keeps the numbers distinct. -/
theorem Distinct.change {v : Ram.Volume} (h : Distinct v) (id : Nat) {f : Ram.Record → Ram.Record} (hid : ∀ r, (f r).id = r.id) :
    Distinct (v.change id f) := by
  have hsame (r : Ram.Record) : (if r.id = id then f r else r).id = r.id := by
    split
    · exact hid r
    · rfl
  constructor
  · have hids : (v.change id f).files.map (·.id) = v.files.map (·.id) := by
      unfold Ram.Volume.change
      rw [List.map_map]
      exact List.map_congr_left fun r _ => hsame r
    rw [hids]
    exact h.nodup
  · intro r hr
    obtain ⟨r₀, hr₀, rfl⟩ := List.mem_map.mp hr
    exact (hsame r₀).symm ▸ h.below r₀ hr₀

/-- A change of one file that leaves its name and identity. -/
theorem ram_spares_change {v : Ram.Volume} (h : Distinct v) (id : Nat) {f : Ram.Record → Ram.Record} (hid : ∀ r, (f r).id = r.id)
    (hname : ∀ r, (f r).name = r.name) {P : List Str → Str → Prop}
    (hP : ∀ leaf r, P [] leaf → v.find leaf = some r → r.id = id → (f r).content.1.length = r.content.1.length) :
    Ram.fat.Spares Distinct v (v.change id f) P := by
  refine ⟨h.change id hid, fun parent leaf hpath => ram_keeps fun r hroot hr => ⟨if r.id = id then f r else r, ?_, ?_, ?_⟩⟩
  · rw [v.find_change hname, hr]
    rfl
  · split
    · exact hid r
    · rfl
  · split
    · rename_i heq
      exact hP leaf r (hroot ▸ hpath) hr heq
    · rfl

/-- A change of the file of an entry spares the files that other paths name. -/
theorem ram_spares_others {v : Ram.Volume} (h : Distinct v) {entry : FileEntry Nat} (hnamed : Ram.fat.Named v entry)
    {f : Ram.Record → Ram.Record} (hid : ∀ r, (f r).id = r.id) (hname : ∀ r, (f r).name = r.name) :
    Ram.fat.Spares Distinct v (v.change entry.identity f) fun parent leaf => Ram.fat.found v parent leaf ≠ some entry := by
  obtain ⟨parent₀, leaf₀, hfound₀⟩ := hnamed
  obtain ⟨rfl, r₀, hr₀, rfl⟩ := ram_named hfound₀
  refine ram_spares_change h _ hid hname fun leaf r hother hr heq => absurd ?_ hother
  rw [ram_found_root, hr, h.eq_of_id (List.mem_of_find?_eq_some hr) (List.mem_of_find?_eq_some hr₀) heq]
  rfl

/-- Truncation spares the other files and keeps the name. -/
theorem ram_truncate {v : Ram.Volume} (h : Distinct v) {entry : FileEntry Nat} (hnamed : Ram.fat.Named v entry) (size : Nat) :
    Ends (Ram.fat.truncate entry size) v
      (fun _ v' => Ram.fat.Spares Distinct v v' (fun parent leaf => Ram.fat.found v parent leaf ≠ some entry) ∧
        ∀ parent leaf, Ram.fat.found v parent leaf = some entry → (Ram.fat.found v' parent leaf).isSome)
      fun _ v' => Ram.fat.Spares Distinct v v' fun _ _ => True := by
  have hid (r : Ram.Record) : (r.withContent (r.content.1.take size)).id = r.id := by
    unfold Ram.Record.withContent
    split <;> rfl
  refine ⟨ram_spares_others h hnamed hid fun r => r.name_withContent _, fun parent leaf hfound => ?_⟩
  obtain ⟨rfl, r, hr, _⟩ := ram_named hfound
  rw [ram_found_root, v.find_change (fun r => r.name_withContent _), hr]
  rfl

/-- The first file of a name, and those before it, which have other names. -/
theorem ram_find_split {v : Ram.Volume} {leaf : Str} {r : Ram.Record} (h : v.find leaf = some r) :
    eqIgnoreAsciiCase r.name.1 leaf = true ∧ ∃ before after, v.files = before ++ r :: after ∧
      ∀ x ∈ before, eqIgnoreAsciiCase x.name.1 leaf = false := by
  obtain ⟨hname, before, after, hfiles, hbefore⟩ := List.find?_eq_some_iff_append.mp h
  exact ⟨hname, before, after, hfiles, fun x hx => by simpa using hbefore x hx⟩

/-- The first file of a name is the one that is found. -/
theorem ram_find_of_split {v : Ram.Volume} {leaf : Str} {r : Ram.Record} (before after : List Ram.Record)
    (hfiles : v.files = before ++ r :: after) (hname : eqIgnoreAsciiCase r.name.1 leaf = true)
    (hbefore : ∀ x ∈ before, eqIgnoreAsciiCase x.name.1 leaf = false) : v.find leaf = some r :=
  List.find?_eq_some_iff_append.mpr ⟨hname, before, after, hfiles, fun x hx => by simp [hbefore x hx]⟩

/-- Deletion spares the other files. -/
theorem ram_delete {v : Ram.Volume} (h : Distinct v) {entry : FileEntry Nat} (hnamed : Ram.fat.Named v entry) :
    Ram.fat.Changes Distinct v (Ram.fat.delete entry) fun parent leaf => Ram.fat.found v parent leaf ≠ some entry := by
  obtain ⟨parent₀, leaf₀, hfound₀⟩ := hnamed
  obtain ⟨rfl, r₀, hr₀, rfl⟩ := ram_named hfound₀
  refine ⟨⟨?_, ?_⟩, fun parent leaf hother => ram_keeps fun r hroot hr => ⟨r, ?_, rfl, rfl⟩⟩
  · exact h.nodup.sublist (List.filter_sublist.map _)
  · exact fun r hr => h.below r (List.mem_filter.mp hr).1
  · subst hroot
    have hne : r.id ≠ r₀.id := by
      intro heq
      refine hother ?_
      rw [ram_found_root, hr, h.eq_of_id (List.mem_of_find?_eq_some hr) (List.mem_of_find?_eq_some hr₀) heq]
      rfl
    obtain ⟨hname, before, after, hfiles, hbefore⟩ := ram_find_split hr
    refine ram_find_of_split (before.filter fun x => x.id ≠ r₀.id) (after.filter fun x => x.id ≠ r₀.id) ?_ hname
      fun x hx => hbefore x (List.mem_filter.mp hx).1
    show v.files.filter (fun x => x.id ≠ r₀.id) = _
    rw [hfiles, List.filter_append, List.filter_cons_of_pos (by simpa using hne)]

/-- Renaming spares the files that are found without it. -/
theorem ram_rename {v : Ram.Volume} (h : Distinct v) {entry : FileEntry Nat} (hnamed : Ram.fat.Named v entry) (name : Str) :
    Ram.fat.Changes Distinct v (Ram.rename entry name) fun parent leaf => ¬Ram.fat.Passes v entry parent leaf := by
  obtain ⟨parent₀, leaf₀, hfound₀⟩ := hnamed
  obtain ⟨rfl, r₀, hr₀, rfl⟩ := ram_named hfound₀
  unfold Fat.Changes Ends Ram.rename
  by_cases hlen : (asBytes name).length ≤ 765
  swap
  · simp only [dif_neg hlen]
    exact .refl h _
  simp only [dif_pos hlen]
  by_cases hfree : (v.find name).isSome = true
  · simp only [if_pos hfree]
    exact .refl h _
  simp only [if_neg hfree]
  refine ⟨h.change _ fun _ => rfl, fun parent leaf hbeside => ram_keeps fun r hroot hr => ⟨r, ?_, rfl, rfl⟩⟩
  subst hroot
  have hne : r.id ≠ r₀.id := by
    intro heq
    refine hbeside ⟨[], leaf, [], rfl, ?_⟩
    rw [ram_found_root, hr, h.eq_of_id (List.mem_of_find?_eq_some hr) (List.mem_of_find?_eq_some hr₀) heq]
    rfl
  obtain ⟨hname, before, after, hfiles, hbefore⟩ := ram_find_split hr
  -- the new name is another than the one that was found, since it was free
  have hother : eqIgnoreAsciiCase name leaf = false := by
    cases heq : eqIgnoreAsciiCase name leaf with
    | false => rfl
    | true =>
      refine absurd (List.find?_isSome.mpr ⟨r, List.mem_of_find?_eq_some hr, ?_⟩) hfree
      unfold eqIgnoreAsciiCase at hname heq ⊢
      rw [decide_eq_true_eq] at hname heq ⊢
      exact hname.trans heq.symm
  let renamed (x : Ram.Record) : Ram.Record := if x.id = r₀.id then { x with name := ⟨name, hlen⟩ } else x
  refine ram_find_of_split (before.map renamed) (after.map renamed) ?_ hname fun x hx => ?_
  · show v.files.map renamed = _
    rw [hfiles, List.map_append, List.map_cons, show renamed r = r from if_neg hne]
  · obtain ⟨y, hy, rfl⟩ := List.mem_map.mp hx
    dsimp only [renamed]
    split
    · exact hother
    · exact hbefore y hy

/-- A new file spares those that are there. -/
theorem ram_createFile {v : Ram.Volume} (h : Distinct v) (name : Str) :
    Ram.fat.Changes Distinct v (Ram.createFile name) fun _ _ => True := by
  unfold Fat.Changes Ends Ram.createFile
  by_cases hlen : (asBytes name).length ≤ 765
  swap
  · simp only [dif_neg hlen]
    exact .refl h _
  simp only [dif_pos hlen]
  by_cases hfree : (v.find name).isSome = true
  · simp only [if_pos hfree]
    exact .refl h _
  simp only [if_neg hfree]
  refine ⟨⟨?_, ?_⟩, fun parent leaf _ => ram_keeps fun r _ hr => ⟨r, ?_, rfl, rfl⟩⟩
  · rw [List.map_append, List.nodup_append]
    refine ⟨h.nodup, List.nodup_singleton _, ?_⟩
    intro id hid id' hid'
    obtain ⟨r, hr, rfl⟩ := List.mem_map.mp hid
    rw [List.map_singleton, List.mem_singleton] at hid'
    exact hid' ▸ (h.below r hr).ne
  · intro r hr
    rcases List.mem_append.mp hr with hr | hr
    · exact Nat.lt_succ_of_lt (h.below r hr)
    · rw [List.mem_singleton.mp hr]
      exact Nat.lt_succ_self _
  · obtain ⟨hname, before, after, hfiles, hbefore⟩ := ram_find_split hr
    refine ram_find_of_split before (after ++ [{ id := v.nextId, name := ⟨name, hlen⟩, content := ⟨[], by decide⟩ }]) ?_ hname
      hbefore
    dsimp only
    rw [hfiles, List.append_assoc, List.cons_append]

/-- A write puts its data, or spares all files where it fails. -/
theorem ram_writeTo {v : Ram.Volume} (h : Distinct v) {entry : FileEntry Nat} (hnamed : Ram.fat.Named v entry) {offset : Nat}
    {data : List UInt8} (hwithin : offset ≤ entry.len) :
    Ends (Ram.fat.writeTo entry offset data) v (Ram.fat.Puts Distinct v entry (offset + data.length))
      fun _ v' => Ram.fat.Spares Distinct v v' fun _ _ => True := by
  obtain ⟨parent₀, leaf₀, hfound₀⟩ := id hnamed
  obtain ⟨rfl, r₀, hr₀, rfl⟩ := ram_named hfound₀
  have hopen : Ram.fat.writerAt r₀.entry offset v = .ok ⟨r₀.id, r₀.content.1.length, offset⟩ v := by
    unfold Fat.writerAt
    split
    · rename_i hend
      rw [hend]
      rfl
    · rfl
  have hfile : v.file r₀.id = some r₀ := by
    cases hfind : v.file r₀.id with
    | none => exact absurd (List.find?_eq_none.mp hfind r₀ (List.mem_of_find?_eq_some hr₀)) (by simp)
    | some r =>
      have hid : r.id = r₀.id := by simpa using List.find?_some hfind
      rw [h.eq_of_id (List.mem_of_find?_eq_some hfind) (List.mem_of_find?_eq_some hr₀) hid]
  have hwrite : Ram.fat.writeTo r₀.entry offset data v =
      Ram.fat.put ⟨r₀.id, r₀.content.1.length, offset⟩ data v := bind_of_ok hopen
  unfold Ends
  rw [hwrite]
  by_cases hfits : (Ram.splice r₀.content.1 offset data).length < 2 ^ 32
  · have hput : Ram.fat.put ⟨r₀.id, r₀.content.1.length, offset⟩ data v =
        .ok (some ⟨r₀.id, (Ram.splice r₀.content.1 offset data).length, offset + data.length⟩)
          (v.change r₀.id fun r => r.withContent (Ram.splice r₀.content.1 offset data)) := by
      have hdone : Ram.fat.writerWrite ⟨r₀.id, r₀.content.1.length, offset⟩ data v =
          .ok (data.length, ⟨r₀.id, (Ram.splice r₀.content.1 offset data).length, offset + data.length⟩)
            (v.change r₀.id fun r => r.withContent (Ram.splice r₀.content.1 offset data)) := by
        show Ram.write _ data v = _
        unfold Ram.write
        simp only [hfile, if_pos hfits]
        rfl
      exact (bind_of_ok hdone).trans (by simp only [ne_eq, not_true_eq_false, if_false]; rfl)
    rw [hput]
    have hid (r : Ram.Record) : (r.withContent (Ram.splice r₀.content.1 offset data)).id = r.id := by
      unfold Ram.Record.withContent
      split <;> rfl
    refine ⟨ram_spares_others h hnamed hid fun r => r.name_withContent _, fun hreaches parent leaf hfound => ?_⟩
    obtain ⟨rfl, r, hr, heq⟩ := ram_named hfound
    have hsame : r = r₀ := h.eq_of_id (List.mem_of_find?_eq_some hr) (List.mem_of_find?_eq_some hr₀) (congrArg FileEntry.identity heq)
    subst hsame
    refine ⟨(r.withContent (Ram.splice r.content.1 offset data)).entry, ?_, ram_appends.mpr ?_⟩
    · rw [ram_found_root, v.find_change (fun r => r.name_withContent _), hr, Option.map_some, if_pos rfl]
      rfl
    · have hlen : (Ram.splice r.content.1 offset data).length = offset + data.length := by
        have hreach : r.content.1.length ≤ offset + data.length := hreaches
        have hstart : offset ≤ r.content.1.length := hwithin
        unfold Ram.splice
        simp only [List.length_append, List.length_take, List.length_replicate, List.length_drop]
        omega
      unfold Ram.Record.withContent
      rw [dif_pos hfits]
      show (⟨r.id, (Ram.splice r.content.1 offset data).length, offset + data.length⟩ : Ram.Place) =
        ⟨r.id, (Ram.splice r.content.1 offset data).length, (Ram.splice r.content.1 offset data).length⟩
      rw [hlen]
  · have hput : Ram.fat.put ⟨r₀.id, r₀.content.1.length, offset⟩ data v = .error .other v := by
      have hfailed : Ram.fat.writerWrite ⟨r₀.id, r₀.content.1.length, offset⟩ data v = .error .other v := by
        show Ram.write _ data v = _
        unfold Ram.write
        simp only [hfile, if_neg hfits]
        rfl
      exact bind_of_error hfailed
    rw [hput]
    exact .refl h _

/-- Cursors of the volume in memory are what the server relies on. -/
theorem ram_cursors : Cursors Ram.fat Distinct where
  openDir _ _ := RefusalAux.leaves_of_same fun _ => rfl
  find _ _ := RefusalAux.leaves_of_same fun _ => rfl
  entries _ := RefusalAux.leaves_of_same fun _ => rfl
  readerNew _ := RefusalAux.leaves_of_same fun _ => rfl
  readerSeek _ _ := RefusalAux.leaves_of_same fun _ => rfl
  readerRead place count := RefusalAux.leaves_of_same fun v => by
    show Ends (Ram.read place count) v _ _
    unfold Ends Ram.read
    cases v.file place.id <;> rfl
  read v entry offset count bytes reader _ h := by
    change Ram.read ⟨entry.identity, entry.len, offset⟩ count v = _ at h
    unfold Ram.read at h
    split at h
    · cases h
    · injection h with h
      injection h with hbytes hreader
      rw [← hreader, ← hbytes]
      exact (ram_reads _).mpr rfl
  write _ _ _ _ hgood hnamed hwithin _ := ram_writeTo hgood hnamed hwithin
  truncate _ _ size hgood hnamed := ram_truncate hgood hnamed size
  delete _ _ hgood hnamed := ram_delete hgood hnamed
  rename _ _ _ name hgood hnamed := ram_rename hgood hnamed name
  createFile _ _ name hgood := ram_createFile hgood name
  createDir v _ _ hgood := Fat.Spares.refl hgood _
  setTimes v entry modified accessed hgood _ :=
    ⟨_, rfl, ram_spares_change hgood _ (f := fun r => { r with modified, accessedDate := accessed }) (fun _ => rfl) (fun _ => rfl)
      fun _ _ _ _ _ => rfl⟩
  setAttributes v entry attributes hgood _ :=
    ⟨_, rfl, ram_spares_change hgood _ (f := fun r => { r with attributes }) (fun _ => rfl) (fun _ => rfl) fun _ _ _ _ _ => rfl⟩
  sync v hgood := Fat.Spares.refl hgood _

/-- Nothing is open, or the next request is of no kind that can strand a cursor and nothing is being written. -/
def Harmless (s : Sftp F) (_ : Event) : Prop :=
  (∀ slot, (s.server.handles slot).isNone = true) ∨
    kindOf s.input ∉ [FXP_OPEN, FXP_REMOVE, FXP_RMDIR, FXP_RENAME, FXP_SETSTAT, FXP_FSETSTAT] ∧
      s.server.writeStream.isNone = true ∧ s.server.resize.isNone = true

instance (s : Sftp F) (e : Event) : Decidable (Harmless s e) := inferInstanceAs (Decidable (_ ∨ _))

/-- A harmless event strands no cursor. -/
theorem Harmless.undisturbed {s : Sftp F} {e : Event} (h : Harmless s e) : s.Undisturbed e := by
  rintro ctx _ hdisturbs
  rcases h with hnone | ⟨hkind, hwrite, hresize⟩
  · have hcalm (struck : List Str → Str → Prop) (dropped : FileHandle F → Prop) : ¬s.server.Strands struck dropped := by
      rintro ⟨file, ⟨slot, hslot⟩, _⟩
      have hslot' := hnone slot
      rw [hslot] at hslot'
      cases hslot'
    cases hdisturbs with
    | request hp _ _ _ _ _ hrequest =>
      generalize kindOf s.input = kind at hrequest
      cases hrequest with
      | remove _ _ _ _ _ _ hstrands => exact hcalm _ _ hstrands
      | rmdir _ _ _ _ _ hstrands => exact hcalm _ _ hstrands
      | rename _ _ _ _ _ _ _ hstrands => exact hcalm _ _ hstrands
      | truncate _ _ _ _ _ hcuts => exact hcalm _ _ hcuts.2
      | setstat _ hshrinks =>
        obtain ⟨_, _, _, _, _, _, _, _, _, _, _, hcuts⟩ := hshrinks
        exact hcalm _ _ hcuts.2
      | fsetstat _ _ _ _ hshrinks =>
        obtain ⟨_, _, _, _, _, _, _, _, _, _, _, hcuts⟩ := hshrinks
        exact hcalm _ _ hcuts.2
    | payload _ _ _ _ _ _ hoverwrites =>
      obtain ⟨_, _, _, _, _, _, _, _, hstrands⟩ := hoverwrites
      exact hcalm _ _ hstrands
    | resize _ _ _ _ houtgrows =>
      obtain ⟨_, _, _, _, _, _, _, hstrands⟩ := houtgrows
      exact hcalm _ _ hstrands
  · cases hdisturbs with
    | request hp _ _ _ _ _ hrequest =>
      generalize kindOf s.input = kind at hrequest hkind
      cases hrequest <;> simp at hkind
    | payload _ _ _ hstream =>
      rw [hstream] at hwrite
      cases hwrite
    | resize _ _ _ hjob =>
      rw [hjob] at hresize
      cases hresize

end TransparentAux

theorem length_two_lt : ([7, 8] : List UInt8).length < 2 ^ 32 := by decide

theorem length_b_le : (asBytes ['b']).length ≤ 765 := by decide

/-- A volume with the files `a` and `b`, of two bytes each. -/
def twoFiles : Ram.Volume :=
  { files := [
      { id := 0, name := ⟨['a'], Ram.length_a_le⟩, content := ⟨[7, 8], length_two_lt⟩ },
      { id := 1, name := ⟨['b'], length_b_le⟩, content := ⟨[9, 10], length_two_lt⟩ }]
    nextId := 2 }

/-- READ of one byte from the first handle. -/
def readOne (offset : UInt8) : List UInt8 :=
  [0, 0, 0, 25, 5, 0, 0, 0, 3, 0, 0, 0, 4, 0, 0, 1, 0, 0, 0, 0, 0, 0, 0, 0, offset, 0, 0, 0, 1]

/-- `/a` is opened, and its first byte is read. -/
def openAndRead : List Event :=
  [.feed (openA 0x01), .beginPoll, .step true {}, .consume 17, .feed (readOne 0), .beginPoll, .step true {}, .consume 13,
    .beginPoll, .step true {}, .consume 1]

/-- The second byte, from the cursor behind the first. -/
theorem cursors_transparent_sequential :
    let es := openAndRead ++ [.feed (readOne 1), .beginPoll, .step true {}, .consume 13, .beginPoll, .step true {}]
    Mealy.outputs serve (new (F := Ram.fat) twoFiles) es = Mealy.outputs servePlain (new (F := Ram.fat) twoFiles) es ∧
      (Mealy.final serve (new (F := Ram.fat) twoFiles) es).forget =
        (Mealy.final servePlain (new (F := Ram.fat) twoFiles) es).forget := by
  have hharmless : Mealy.Along serve TransparentAux.Harmless (new (F := Ram.fat) twoFiles) (openAndRead ++
      [.feed (readOne 1), .beginPoll, .step true {}, .consume 13, .beginPoll, .step true {}]) := by decide +kernel
  exact cursors_transparent TransparentAux.ram_cursors ⟨by decide, by decide⟩ _
    (hharmless.mono fun _ _ h => h.undisturbed)

/-- Once `b` has taken the place of `a`, the cursor is stale: the session ends, where one without cursors reads on. -/
example :
    let es := openAndRead ++ [
      .feed [0, 0, 0, 11, 13, 0, 0, 0, 4, 0, 0, 0, 2, 47, 97], .beginPoll, .step true {}, .consume 100,
      .feed [0, 0, 0, 17, 18, 0, 0, 0, 5, 0, 0, 0, 2, 47, 98, 0, 0, 0, 2, 47, 97], .beginPoll, .step true {}, .consume 100,
      .feed (readOne 1), .beginPoll, .step true {}, .consume 13, .beginPoll, .step true {}]
    (Mealy.final serve (new (F := Ram.fat) twoFiles) es).server.fatal = true ∧
      (Mealy.final servePlain (new (F := Ram.fat) twoFiles) es).output = [10] := by decide +kernel

end Sftp

end Ratputer
