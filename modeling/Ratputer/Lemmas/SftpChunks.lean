import Ratputer.Lemmas.SftpSteps

/-!
# What a chunk that was written did

A call on one file that ends with a value, taken apart into the driver calls it made.
-/

namespace Ratputer

open Effect

variable {V : Type} {F : Fat V}

namespace ChunkAux

variable {α : Type} {file file' : FileHandle F} {v v' : V}

/-- A call on an open file leaves the handle alone. -/
theorem fileCall_eq {op : FatM V α} {r : Except FatError α} (h : fileCall op (file, v) = .ok r (file', v')) :
    file' = file ∧ ((∃ a, op v = .ok a v' ∧ r = .ok a) ∨ ∃ e, op v = .error e v' ∧ r = .error e) := by
  unfold fileCall at h
  dsimp only at h
  cases hop : op v with
  | ok a v₁ =>
    rw [hop] at h
    injection h with h1 h2
    injection h2 with h2 h3
    subst h1 h2 h3
    exact ⟨rfl, .inl ⟨a, rfl, rfl⟩⟩
  | error e v₁ =>
    rw [hop] at h
    injection h with h1 h2
    injection h2 with h2 h3
    subst h1 h2 h3
    exact ⟨rfl, .inr ⟨e, rfl, rfl⟩⟩

/-- One that succeeds gives what the driver gives. -/
theorem fileCallOr_ok {op : FatM V α} {status : Status} {a : α} (h : fileCallOr op status (file, v) = .ok a (file', v')) :
    op v = .ok a v' ∧ file' = file := by
  obtain ⟨r, ⟨file₁, v₁⟩, hcall, hrest⟩ := bind_eq_ok h
  obtain ⟨rfl, ⟨b, hop, rfl⟩ | ⟨e, _, rfl⟩⟩ := fileCall_eq hcall
  · injection hrest with h1 h2
    injection h2 with h2 h3
    subst h1 h2 h3
    exact ⟨hop, rfl⟩
  · nomatch hrest

/-- The entry of an open file is the one at its path. -/
theorem fileEntry_ok {entry : F.Entry} (h : fileEntry (file, v) = .ok entry (file', v')) :
    F.findIn file.parent file.leaf v = .ok (some entry) v' ∧ file' = file := by
  obtain ⟨_, _, hview, h⟩ := bind_eq_ok h
  injection hview with h1 h2
  subst h1 h2
  obtain ⟨r, ⟨file₁, v₁⟩, hcall, hrest⟩ := bind_eq_ok h
  obtain ⟨rfl, ⟨b, hop, rfl⟩ | ⟨e, _, rfl⟩⟩ := fileCall_eq hcall
  · cases b with
    | none => nomatch hrest
    | some found =>
      injection hrest with h1 h2
      injection h2 with h2 h3
      subst h1 h2 h3
      exact ⟨hop, rfl⟩
  · nomatch hrest

/-- A guard that did not throw. -/
theorem guard_ok {c : Prop} [Decidable c] {status : Status} {f : PUnit → FileM F α} {w w' : FileHandle F × V} {a : α}
    (h : (if c then MonadExcept.throw status >>= f else f ()) w = .ok a w') : ¬c ∧ f () w = .ok a w' := by
  split at h
  · obtain ⟨_, _, hthrow, _⟩ := bind_eq_ok h
    nomatch hthrow
  · exact ⟨‹_›, h⟩

/-- The calls that can open a writer at an offset of an entry; `append` is the cursor at hand. -/
def Opens (entry : F.Entry) (offset : Nat) (append : Option F.AppendCursor) (v : V) (writer : F.Writer) (v' : V) : Prop :=
  if offset = entry.len then
    match append with
    | some cursor => F.writerFromCursor entry cursor v = .ok writer v'
    | none => F.writerNewAppend entry v = .ok writer v'
  else F.writerNewAt entry offset v = .ok writer v'

/-- The writer stands at the offset, and the append cursor is used up. -/
theorem openWriter_ok {entry : F.Entry} {offset : Nat} {writer : F.Writer}
    (h : openWriter entry offset (file, v) = .ok writer (file', v')) :
    Opens entry offset file.append v writer v' ∧ file' = { file with append := none } := by
  unfold openWriter at h
  unfold Opens
  split at h
  · rw [if_pos ‹_›]
    obtain ⟨_, _, hview, h⟩ := bind_eq_ok h
    injection hview with h1 h2
    subst h1 h2
    obtain ⟨_, _, hupdate, h⟩ := bind_eq_ok h
    injection hupdate with _ h2
    subst h2
    dsimp only at h
    cases happend : file.append with
    | some cursor =>
      simp only [happend] at h
      exact fileCallOr_ok h
    | none =>
      simp only [happend] at h
      exact fileCallOr_ok h
  · rw [if_neg ‹_›]
    obtain ⟨_, _, hupdate, h⟩ := bind_eq_ok h
    injection hupdate with _ h2
    subst h2
    exact fileCallOr_ok h

/-- All of the data was written. -/
theorem writeAll_ok {writer writer' : F.Writer} {data : List UInt8}
    (h : writeAll writer data (file, v) = .ok writer' (file', v')) :
    F.writerWrite writer data v = .ok (data.length, writer') v' ∧ file' = file := by
  obtain ⟨⟨count, writer₁⟩, ⟨file₁, v₁⟩, hcall, hrest⟩ := bind_eq_ok h
  obtain ⟨hop, rfl⟩ := fileCallOr_ok hcall
  dsimp only at hrest
  split at hrest
  · obtain ⟨_, _, _, hthrow⟩ := bind_eq_ok hrest
    nomatch hthrow
  · rename_i hcount
    injection hrest with h1 h2
    injection h2 with h2 h3
    subst h1 h2 h3
    rw [not_not] at hcount
    exact ⟨hcount ▸ hop, rfl⟩

end ChunkAux

/-- A chunk that was written: the entry it was written to, and the driver calls that wrote it. -/
structure Written (offset : Nat) (data : List UInt8) (file file' : FileHandle F) (v v' : V) where
  entry : F.Entry
  found : V
  find : F.findIn file.parent file.leaf v = .ok (some entry) found
  writable : entry.readOnly = false
  short : offset + data.length ≤ U32_MAX
  within : offset ≤ entry.len
  writer : F.Writer
  opened : V
  opens : ChunkAux.Opens entry offset (if file.size ≠ entry.len then none else file.append) found writer opened
  writer' : F.Writer
  filled : V
  write : F.writerWrite writer data opened = .ok (data.length, writer') filled
  finish : F.writerFinish writer' filled = .ok () v'
  file_eq : file' = { file with
    append := if entry.len ≤ offset + data.length then some (F.writerAppendCursor writer') else none
    readAt := none
    size := max entry.len (offset + data.length) }

/-- A chunk that was written without an error was found, opened, written whole and committed. -/
theorem writeChunk_ok {offset : Nat} {data : List UInt8} {file file' : FileHandle F} {v v' : V}
    (h : writeChunk offset data (file, v) = .ok () (file', v')) : Nonempty (Written offset data file file' v v') := by
  obtain ⟨entry, ⟨file₁, found⟩, hentry, hguards⟩ := bind_eq_ok h
  obtain ⟨hfind, rfl⟩ := ChunkAux.fileEntry_ok hentry
  obtain ⟨hwritable, hguards⟩ := ChunkAux.guard_ok hguards
  obtain ⟨hshort, hguards⟩ := ChunkAux.guard_ok hguards
  obtain ⟨hwithin, hbody⟩ := ChunkAux.guard_ok hguards
  obtain ⟨_, _, hupdate, hbody⟩ := bind_eq_ok hbody
  injection hupdate with _ h2
  subst h2
  obtain ⟨writer, ⟨file₂, opened⟩, hopen, hbody⟩ := bind_eq_ok hbody
  obtain ⟨hopens, hfile₂⟩ := ChunkAux.openWriter_ok hopen
  obtain ⟨writer', ⟨file₃, filled⟩, hwrite, hend⟩ := bind_eq_ok hbody
  obtain ⟨hwritten, rfl⟩ := ChunkAux.writeAll_ok hwrite
  obtain ⟨_, ⟨file₄, v₄⟩, hfinish, hupdate⟩ := bind_eq_ok hend
  obtain ⟨hfinished, rfl⟩ := ChunkAux.fileCallOr_ok hfinish
  injection hupdate with _ h2
  injection h2 with h2 h3
  subst h3
  refine ⟨⟨entry, found, hfind, Bool.eq_false_of_not_eq_true hwritable, not_lt.mp hshort, not_lt.mp hwithin, writer, opened,
    ?_, writer', filled, hwritten, hfinished, ?_⟩⟩
  · by_cases hsize : file₁.size = entry.len
    · simpa only [hsize, ne_eq, not_true_eq_false, if_false] using hopens
    · simpa only [hsize, ne_eq, not_false_eq_true, if_true] using hopens
  · rw [← h2, hfile₂]
    by_cases hsize : file₁.size = entry.len
    · simp only [hsize, ne_eq, not_true_eq_false, if_false]
    · simp only [hsize, ne_eq, not_false_eq_true, if_true]

/-- The handle keeps its path. -/
theorem Written.samePath {offset : Nat} {data : List UInt8} {file file' : FileHandle F} {v v' : V}
    (h : Written offset data file file' v v') : file'.parent = file.parent ∧ file'.leaf = file.leaf := by
  rw [h.file_eq]
  exact ⟨rfl, rfl⟩

namespace ChunkAux

variable {α : Type} {w w' : World F}

/-- A driver call leaves the server alone. -/
theorem call_eq {op : FatM V α} {r : Except FatError α} (h : call op w = .ok r w') :
    w'.server = w.server ∧
      ((∃ a, op w.volume = .ok a w'.volume ∧ r = .ok a) ∨ ∃ e, op w.volume = .error e w'.volume ∧ r = .error e) := by
  unfold call at h
  cases hop : op w.volume with
  | ok a v =>
    rw [hop] at h
    injection h with h1 h2
    subst h1 h2
    exact ⟨rfl, .inl ⟨a, rfl, rfl⟩⟩
  | error e v =>
    rw [hop] at h
    injection h with h1 h2
    subst h1 h2
    exact ⟨rfl, .inr ⟨e, rfl, rfl⟩⟩

/-- The entry that is found is the one at the path. -/
theorem findEntry_ok {parent : List Str} {leaf : Str} {entry : F.Entry} (h : findEntry parent leaf w = .ok entry w') :
    F.findIn parent leaf w.volume = .ok (some entry) w'.volume ∧ w'.server = w.server := by
  obtain ⟨r, w₁, hcall, hrest⟩ := bind_eq_ok h
  obtain ⟨hserver, ⟨b, hop, rfl⟩ | ⟨e, _, rfl⟩⟩ := call_eq hcall
  · cases b with
    | none => nomatch hrest
    | some found =>
      injection hrest with h1 h2
      subst h1 h2
      exact ⟨hop, hserver⟩
  · nomatch hrest

/-- A path with a last component is split there. -/
theorem splitLast_append (parent : List Str) (leaf : Str) (status : Status) :
    splitLast (parent ++ [leaf]) status = .ok (leaf, parent) := by
  simp [splitLast]

end ChunkAux

/-- A SETSTAT that goes on growing its file has written a chunk of zeros at the end of it. -/
theorem resizeChunk_ok {job job' : ResizeJob F} {ctx : Ctx} {w w' : World F} (hjob : job.Valid)
    (h : resizeChunk job ctx w = .ok (job', false) w') : ∃ entry v file',
      F.findIn job.file.parent job.file.leaf w.volume = .ok (some entry) v ∧ entry.len < job.attrs.size.getD 0 ∧
        writeChunk entry.len (List.replicate (min (job.attrs.size.getD 0 - entry.len) WRITE_CHUNK) 0) (job.file, v) =
          .ok () (file', w'.volume) ∧ job' = { job with file := file' } := by
  obtain ⟨⟨leaf, parent⟩, w₁, hsplit, hfind⟩ := bind_eq_ok h
  rw [hjob, ChunkAux.splitLast_append] at hsplit
  injection hsplit with h1 h2
  injection h1 with hleaf hparent
  subst hleaf hparent h2
  obtain ⟨entry, w₂, hentry, hrest⟩ := bind_eq_ok hfind
  obtain ⟨hentry, hserver⟩ := ChunkAux.findEntry_ok hentry
  dsimp only at hrest
  split at hrest
  · rename_i hlt
    obtain ⟨job₁, w₃, hjob₁, hrest⟩ := bind_eq_ok hrest
    obtain ⟨_, w₄, hupdate, hrest⟩ := bind_eq_ok hrest
    injection hrest with h1 h2
    injection h1 with h1
    injection hupdate with _ h3
    subst h1 h2
    unfold onJob at hjob₁
    cases hchunk : writeChunk entry.len (List.replicate (min (job.attrs.size.getD 0 - entry.len) WRITE_CHUNK) 0)
        (job.file, w₂.volume) with
    | ok _ r =>
      rw [hchunk] at hjob₁
      injection hjob₁ with h4 h5
      refine ⟨entry, w₂.volume, r.1, hentry, hlt, ?_, h4.symm⟩
      rw [← h3, ← h5]
      exact hchunk
    | error status r =>
      rw [hchunk] at hjob₁
      nomatch hjob₁
  · obtain ⟨_, _, _, hrest⟩ := bind_eq_ok hrest
    obtain ⟨_, _, _, hrest⟩ := bind_eq_ok hrest
    injection hrest with h1 h2
    injection h1 with _ h1
    nomatch h1

/-- A write through a slot leaves every file handle on its path. -/
theorem invalidateWritten_file (s : Server F) (slot i : Slot) {file : FileHandle F} (h : s.handles i = some (.file file)) :
    ∃ file', (s.invalidateWritten slot).handles i = some (.file file') ∧ file'.parent = file.parent ∧
      file'.leaf = file.leaf := by
  unfold Server.invalidateWritten
  split
  · simp only [h]
    split
    · exact ⟨_, rfl, rfl, rfl⟩
    split
    · exact ⟨_, rfl, rfl, rfl⟩
    · exact ⟨_, rfl, rfl, rfl⟩
  · exact ⟨file, h, rfl, rfl⟩

/-- A payload that still waits without an error has had a chunk of zeros written into the gap before it. -/
theorem writePayload_gap {stream : WriteStream} {payload : List UInt8} {mounted : Bool} {w w' : World F}
    (h : writePayload stream payload mounted w = (w', none, false)) : ∃ file entry v file' file'',
      w.server.handles stream.slot = some (.file file) ∧
        F.findIn file.parent file.leaf w.volume = .ok (some entry) v ∧ entry.len < stream.offset ∧
        writeChunk entry.len (List.replicate (min (stream.offset - entry.len) WRITE_CHUNK) 0) (file, v) =
          .ok () (file', w'.volume) ∧
        w'.server.handles stream.slot = some (.file file'') ∧ file''.parent = file'.parent ∧ file''.leaf = file'.leaf := by
  unfold writePayload at h
  split at h
  · nomatch h
  split at h
  · rename_i file hfile
    split at h
    · rename_i entry v hfind
      dsimp only at h
      split at h
      · rename_i w₁ hrun
        injection h with h1 h2
        injection h2 with _ h2
        by_cases hgap : entry.len < (if file.appendMode = true then entry.len else stream.offset)
        · have happend : file.appendMode = false := by
            by_contra hon
            rw [if_pos (by simpa using hon)] at hgap
            exact lt_irrefl _ hgap
          simp only [happend, Bool.false_eq_true, if_false] at hgap hrun
          simp only [hgap, decide_true, if_true] at hrun
          unfold onFile at hrun
          simp only [hfile] at hrun
          cases hchunk : writeChunk entry.len (List.replicate (min (stream.offset - entry.len) WRITE_CHUNK) 0) (file, v) with
          | ok _ r =>
            rw [hchunk] at hrun
            injection hrun with _ h3
            have hslot : w₁.server.handles stream.slot = some (.file r.1) := by
              rw [← h3]
              exact Function.update_self _ _ _
            obtain ⟨file'', hslot', hparent, hleaf⟩ := invalidateWritten_file w₁.server stream.slot stream.slot hslot
            refine ⟨file, entry, v, r.1, file'', hfile, hfind, hgap, ?_, ?_, hparent, hleaf⟩
            · rw [hchunk, ← h1, ← h3]
            · rw [← h1]
              exact hslot'
          | error status r =>
            rw [hchunk] at hrun
            nomatch hrun
        · rw [decide_eq_false hgap] at h2
          nomatch h2
      · injection h with _ h2
        injection h2 with h2
        nomatch h2
    · injection h with _ h2
      injection h2 with h2
      nomatch h2
    · injection h with _ h2
      injection h2 with h2
      nomatch h2
  · injection h with _ h2
    injection h2 with h2
    nomatch h2

end Ratputer
