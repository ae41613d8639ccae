import Ratputer.Lemmas.CopyJob

/-!
# A copy while the card works

What the polls of a copy come to on a volume with room: a file goes over chunk by chunk, with the offset that both cursors stand at
as the invariant.
-/

namespace Ratputer

open Effect

variable {V : Type} {F : CopyFat V} {T : TreeView F}

namespace TreeView

section

variable (frame : T.Contained) (law : T.Succeeds)

include frame law

theorem Succeeds.openDirPath_ok {v : V} {k : Nat} {p : List Str} {names : List Str} (hroom : T.room v k)
    (h : T.node v p = some (.directory names)) : ∃ dir, F.openDirPath p v = .ok dir v ∧ T.opens v dir p := by
  have hfrom (rest : List Str) : ∀ (before : List Str) (dir : F.Dir), T.opens v dir before → before ++ rest = p →
      ∃ dir', F.openDirFrom dir rest v = .ok dir' v ∧ T.opens v dir' p := by
    induction rest with
    | nil =>
      intro before dir hopens hp
      rw [List.append_nil] at hp
      exact ⟨dir, rfl, hp ▸ hopens⟩
    | cons name rest ih =>
      intro before dir hopens hp
      have hsplit : (before ++ [name]) ++ rest = p := by rw [List.append_assoc]; exact hp
      obtain ⟨names', hnames'⟩ := frame.directory_of_append (hsplit ▸ h)
      obtain ⟨dir', hrun⟩ := law.openDir v k dir before name names' hroom hopens hnames'
      have hopens' := frame.opened v dir before name dir' v hopens (Option.isSome_of_eq_some hnames') hrun
      obtain ⟨dir'', hrun', hopens''⟩ := ih (before ++ [name]) dir' hopens' hsplit
      exact ⟨dir'', (bind_of_ok hrun).trans hrun', hopens''⟩
  exact hfrom p [] (F.rootDir v) (frame.root v) rfl

theorem Succeeds.findOrFail_ok {v : V} {k : Nat} {dir : F.Dir} {p : List Str} {name : Str} (hroom : T.room v k)
    (hopens : T.opens v dir p) (hthere : (T.node v (p ++ [name])).isSome) :
    ∃ entry, findOrFail F dir name v = .ok entry v ∧ T.stands v entry (p ++ [name]) := by
  obtain ⟨r, hrun⟩ := law.find v k dir p name hroom hopens hthere
  obtain ⟨entry, rfl, hstands⟩ := frame.found v dir p name r v hopens hthere hrun
  exact ⟨entry, bind_of_ok hrun, hstands⟩

omit frame in
theorem Succeeds.requireFree_ok {v : V} {k : Nat} {dir : F.Dir} {p : List Str} {name : Str} {names : List Str} (hroom : T.room v k)
    (hopens : T.opens v dir p) (hnode : T.node v p = some (.directory names)) (hfree : ∀ n ∈ names, ¬T.clash n name) :
    requireFree F dir name v = .ok () v := bind_of_ok (law.find_free v k dir p name names hroom hopens hnode hfree)

end

/-! ## Items -/

/-- The items of a directory are its records without `.` and `..`, by number. -/
theorem itemIn_eq (records : List F.Entry) {position index : Nat} (h : position ≤ index) :
    itemIn (records.map .ok) position index = .ok (((records.filter isListed)[index - position]?).map fun entry =>
      ⟨String.ofList entry.name, entry.isDirectory, entry.len⟩) := by
  induction records generalizing position with
  | nil => rfl
  | cons entry records ih =>
    rw [List.map_cons, itemIn]
    by_cases hdots : entry.name = ['.'] ∨ entry.name = ['.', '.']
    · have hout : isListed entry = false := by rw [isListed, decide_eq_true hdots, Bool.not_true]
      rw [if_pos hdots, List.filter_cons, hout, if_neg Bool.false_ne_true, ih h]
    · have hin : isListed entry = true := by rw [isListed, decide_eq_false hdots, Bool.not_false]
      rw [if_neg hdots, List.filter_cons, hin, if_pos (Eq.refl true)]
      by_cases hhere : position = index
      · subst hhere
        rw [if_pos rfl, Nat.sub_self]
        rfl
      · rw [if_neg hhere, ih (by omega), show index - position = index - (position + 1) + 1 by omega, List.getElem?_cons_succ]

section

variable (frame : T.Contained) (law : T.Succeeds) {v : V} {k : Nat} {p : List Str} {names : List Str}

include frame law

/-- Past the last name there is no item. -/
theorem Succeeds.itemAt_none (hroom : T.room v k) (hnode : T.node v p = some (.directory names)) :
    itemAt F p names.length v = .ok none v := by
  obtain ⟨dir, hopen, hopens⟩ := law.openDirPath_ok frame hroom hnode
  obtain ⟨records, hrun, hlisted⟩ := law.entries v k dir p names hroom hopens hnode
  unfold itemAt
  rw [bind_of_ok hopen, bind_of_ok hrun, itemIn_eq records (Nat.zero_le _), Nat.sub_zero, ← hlisted.length_eq,
    List.getElem?_eq_none (Nat.le_refl _)]
  rfl

/-- The item of a number is the name of that number, a directory where one stands. -/
theorem Succeeds.itemAt_some (hroom : T.room v k) (hnode : T.node v p = some (.directory names)) {i : Nat} {name : Str}
    (hi : names[i]? = some name) : ∃ item, itemAt F p i v = .ok (some item) v ∧ item.name.toList = name ∧
      (item.directory = true ↔ ∃ names', T.node v (p ++ [name]) = some (.directory names')) := by
  obtain ⟨dir, hopen, hopens⟩ := law.openDirPath_ok frame hroom hnode
  obtain ⟨records, hrun, hlisted⟩ := law.entries v k dir p names hroom hopens hnode
  obtain ⟨hlen, hname⟩ := List.getElem?_eq_some_iff.mp hi
  have hlen' := hlisted.length_eq ▸ hlen
  obtain ⟨hentry, hstands⟩ := hlisted.get hlen' hlen
  rw [List.get_eq_getElem, List.get_eq_getElem, hname] at hentry hstands
  obtain ⟨entry, heq⟩ : ∃ entry, (records.filter isListed)[i] = entry := ⟨_, rfl⟩
  dsimp only at hentry hstands
  rw [heq] at hentry hstands
  refine ⟨⟨String.ofList entry.name, entry.isDirectory, entry.len⟩, ?_, ?_, frame.stood v _ _ hstands⟩
  · unfold itemAt
    rw [bind_of_ok hopen, bind_of_ok hrun, itemIn_eq records (Nat.zero_le _), Nat.sub_zero, List.getElem?_eq_getElem hlen', heq]
    rfl
  · rw [String.toList_ofList]
    exact hentry

end

end TreeView

/-! ## Files -/

namespace FileCopy

variable (file : FileCopy F)

/-- The paths of the two sides. -/
def sourcePath : List Str := file.source ++ [file.name]

def targetPath : List Str := file.target ++ [file.name]

end FileCopy

/-- A file of which so many octets are over: the target holds them, and both cursors stand behind them. -/
structure FileCopy.Copied (T : TreeView F) (file : FileCopy F) (content : List UInt8) (offset : Nat) (v : V) : Prop where
  apart : file.sourcePath ≠ file.targetPath
  source : T.node v file.sourcePath = some (.file content)
  target : T.node v file.targetPath = some (.file (content.take offset))
  started : file.started = true
  readCursor : ∃ cursor, file.readCursor = some cursor ∧ T.readsOn v cursor file.sourcePath offset
  writeCursor : ∃ cursor, file.writeCursor = some cursor ∧ T.appendsOn v cursor file.targetPath

/-- How many polls the rest of a file takes: one for each chunk, and one that finds the end. -/
def chunkPolls (rest : Nat) : Nat := (rest + (COPY_CHUNK - 1)) / COPY_CHUNK + 1

section Files

variable (frame : T.Contained) (law : T.Succeeds) {v v₁ : V} {k offset : Nat} {file : FileCopy F} {content : List UInt8}

include frame law

omit frame in
theorem appendChunk_ok {writer : F.Writer} {p : List Str} {chunk : List UInt8} (hroom : T.room v (k + 1))
    (happends : T.appends v writer p) (hnode : T.node v p = some (.file content)) (hsmall : (content ++ chunk).length < 2 ^ 32) :
    ∃ cursor v', appendChunk F writer chunk v = .ok cursor v' ∧ T.room v' k ∧ T.node v' p = some (.file (content ++ chunk)) ∧
      T.appendsOn v' cursor p := by
  obtain ⟨writer', v', v'', hwrite, hfinish, hroom', hnode', hcursor⟩ := law.put v k writer p content chunk hroom happends hnode hsmall
  have hout : writeOut F writer chunk v = .ok writer' v' := by
    unfold writeOut
    by_cases hempty : chunk = []
    · subst hempty
      rw [law.write_nil] at hwrite
      cases hwrite
      rw [if_pos rfl]
    · rw [if_neg hempty, hwrite]
      exact if_pos rfl
  refine ⟨F.writerAppendCursor writer', v'', ?_, hroom', hnode', hcursor⟩
  unfold appendChunk
  rw [bind_of_ok hout, bind_of_ok hfinish]
  rfl

/-- A chunk, once the target is there: it puts the octets behind the offset over. -/
theorem chunk_ok {l : Nat} (file : FileCopy F) {target : F.Entry} (hroom : T.room v l) (hroom₁ : T.room v₁ (k + 1))
    (hapart : file.sourcePath ≠ file.targetPath)
    (hsource : T.node v file.sourcePath = some (.file content)) (hentry : file.targetEntry v = .ok target v₁)
    (hspares : T.Spares v v₁ file.sourcePath)
    (hreader : ∀ source, T.stands v₁ source file.sourcePath →
      ∃ reader, file.openSource source v₁ = .ok reader v₁ ∧ T.reads v₁ reader file.sourcePath offset)
    (hwriter : ∃ writer, file.openTarget target v₁ = .ok writer v₁ ∧ T.writes v₁ writer file.targetPath ∧
      T.appends v₁ writer file.targetPath)
    (htarget : T.node v₁ file.targetPath = some (.file (content.take offset))) :
    ∃ file' v₂, file.chunk v = .ok (file', min COPY_CHUNK (content.length - offset)) v₂ ∧ T.room v₂ k ∧
      file'.sourcePath = file.sourcePath ∧ file'.targetPath = file.targetPath ∧
      file'.Copied T content (offset + min COPY_CHUNK (content.length - offset)) v₂ ∧
      ∀ q, q ≠ file.targetPath → T.Spares v₁ v₂ q := by
  obtain ⟨names, hnames, _⟩ := frame.closed v file.source file.name (Option.isSome_of_eq_some hsource)
  obtain ⟨parent, hparent, hopens⟩ := law.openDirPath_ok frame hroom hnames
  obtain ⟨source, hfind, hstands⟩ := law.findOrFail_ok frame hroom hopens (Option.isSome_of_eq_some hsource)
  have hfile : source.isDirectory = false := by
    rw [← Bool.not_eq_true]
    intro hdir
    obtain ⟨names', hnames'⟩ := (frame.stood v source _ hstands).mp hdir
    exact nomatch hsource.symm.trans hnames'
  obtain ⟨reader, hopen, hreads⟩ := hreader source (hspares.stands source hstands)
  have hsource₁ : T.node v₁ file.sourcePath = some (.file content) := hspares.node.trans hsource
  obtain ⟨reader', hread, hcursor⟩ := law.readerRead v₁ _ reader _ offset content COPY_CHUNK hroom₁ hreads hsource₁
  obtain ⟨writer, hopen', hwrites, happends⟩ := hwriter
  generalize hbytes : (content.drop offset).take COPY_CHUNK = bytes at hread hcursor
  have hlength : bytes.length = min COPY_CHUNK (content.length - offset) := by
    rw [← hbytes, List.length_take, List.length_drop]
  have htake : content.take offset ++ bytes = content.take (offset + bytes.length) := by
    rw [List.take_add, ← List.prefix_iff_eq_take.mp (hbytes ▸ List.take_prefix _ _)]
  have hsmall : (content.take offset ++ bytes).length < 2 ^ 32 := by
    rw [htake]
    exact Nat.lt_of_le_of_lt (List.length_take_le' _ _) (law.small v _ _ hsource)
  obtain ⟨cursor, v₂, happend, hroom₂, hnode₂, hcursor₂⟩ := appendChunk_ok law hroom₁ happends htarget hsmall
  have hframe : ∀ q, q ≠ file.targetPath → T.Spares v₁ v₂ q :=
    ((frame.ends_appendChunk hwrites ⟨_, htarget⟩ bytes).ok happend).spares
  refine ⟨{ file with readCursor := some (F.readerCursor reader'), writeCursor := some cursor, started := true }, v₂, ?_, hroom₂,
    rfl, rfl, ⟨hapart, ?_, ?_, rfl, ⟨_, rfl, ?_⟩, ⟨_, rfl, hcursor₂⟩⟩, hframe⟩
  · unfold FileCopy.chunk
    have hrequire : require (V := V) (source.isDirectory = false) v = .ok () v := by
      rw [require, if_pos hfile]
      rfl
    rw [bind_of_ok hparent, bind_of_ok hfind, bind_of_ok hrequire, bind_of_ok hentry, bind_of_ok hopen, bind_of_ok hread]
    dsimp only
    rw [bind_of_ok hopen', bind_of_ok happend, ← hlength]
    rfl
  · exact (hframe _ hapart).node.trans hsource₁
  · rw [← hlength, ← htake]
    exact hnode₂
  · rw [← hlength]
    exact (hframe _ hapart).readsOn _ _ hcursor

/-- A poll on a file that is partly over. -/
theorem nextChunk_ok (h : file.Copied T content offset v) (hroom : T.room v (k + 1)) :
    ∃ file' v₂, file.chunk v = .ok (file', min COPY_CHUNK (content.length - offset)) v₂ ∧ T.room v₂ k ∧
      file'.sourcePath = file.sourcePath ∧ file'.targetPath = file.targetPath ∧
      file'.Copied T content (offset + min COPY_CHUNK (content.length - offset)) v₂ ∧
      ∀ q, q ≠ file.targetPath → T.Spares v v₂ q := by
  obtain ⟨readCursor, hread, hreads⟩ := h.readCursor
  obtain ⟨writeCursor, hwrite, happends⟩ := h.writeCursor
  obtain ⟨names, hnames, _⟩ := frame.closed v file.target file.name (Option.isSome_of_eq_some h.target)
  obtain ⟨dest, hdest, hopens⟩ := law.openDirPath_ok frame hroom hnames
  obtain ⟨target, hfind, hstands⟩ := law.findOrFail_ok frame hroom hopens (Option.isSome_of_eq_some h.target)
  have hentry : file.targetEntry v = .ok target v := by
    unfold FileCopy.targetEntry
    rw [bind_of_ok hdest, h.started, if_pos rfl, hfind]
  refine chunk_ok frame law file hroom hroom h.apart h.source hentry (.refl v _) (fun source hsource => ?_) ?_ h.target
  · obtain ⟨reader, hopen, hreader⟩ := law.readerFromCursor v _ source readCursor _ offset hroom hsource hreads
    refine ⟨reader, ?_, hreader⟩
    rw [FileCopy.openSource, hread]
    exact hopen
  · obtain ⟨writer, hopen, hwriter⟩ := law.writerFromCursor v _ target writeCursor _ hroom hstands happends
    refine ⟨writer, ?_, frame.writer_of_cursor v target _ writeCursor writer v hstands hopen, hwriter⟩
    rw [FileCopy.openTarget, h.started, if_pos rfl, hwrite]
    exact hopen

omit frame law in
/-- A poll of the job on its file. -/
theorem goes_stepFile {file' : FileCopy F} {count : Nat} (dirs : List DirectoryCopy) (copied files : Nat)
    (h : file.chunk v = .ok (file', count) v₁) :
    Goes CopyJob.step (⟨dirs, some file, copied, files⟩, v)
      (if count = 0 then ⟨dirs, none, copied + count, files + 1⟩ else ⟨dirs, some file', copied + count, files⟩, v₁) := by
  show (CopyJob.stepFile _ file) v = _
  unfold CopyJob.stepFile
  rw [bind_of_ok h]
  rfl

/-- The polls after the first chunk take the rest of the file over. -/
theorem file_rest {m : Nat} {dirs : List DirectoryCopy} {copied files : Nat} (hoffset : offset ≤ content.length)
    (hm : content.length - offset = m) (h : file.Copied T content offset v) (hroom : T.room v (k + chunkPolls m)) :
    ∃ v', Leads CopyJob.step (⟨dirs, some file, copied, files⟩, v) (⟨dirs, none, copied + m, files + 1⟩, v') ∧ T.room v' k ∧
      T.node v' file.targetPath = some (.file content) ∧ ∀ q, q ≠ file.targetPath → T.Spares v v' q := by
  induction m using Nat.strong_induction_on generalizing v offset file copied with
  | _ m ih =>
    by_cases hend : m = 0
    · -- the empty chunk
      subst hend
      obtain ⟨file', v₂, hchunk, hroom₂, _, hsame, hcopied, hspares⟩ := nextChunk_ok frame law h hroom
      have hgo := goes_stepFile dirs copied files hchunk
      rw [hm] at hgo hcopied
      refine ⟨v₂, .single hgo, hroom₂, ?_, hspares⟩
      rw [← hsame, hcopied.target]
      rw [Nat.min_zero, Nat.add_zero, List.take_of_length_le (Nat.sub_eq_zero_iff_le.mp hm)]
    · have hpolls : k + chunkPolls m = k + chunkPolls (m - min COPY_CHUNK m) + 1 := by
        unfold chunkPolls COPY_CHUNK
        omega
      rw [hpolls] at hroom
      obtain ⟨file', v₂, hchunk, hroom₂, _, hsame, hcopied, hspares⟩ := nextChunk_ok frame law h hroom
      have hgo := goes_stepFile dirs copied files hchunk
      rw [hm] at hgo hcopied
      have hpos : 0 < COPY_CHUNK := by decide
      rw [if_neg (by omega)] at hgo
      obtain ⟨v', hleads, hroom', hnode, hspares'⟩ := ih (m - min COPY_CHUNK m) (by omega) (by omega) (by omega) hcopied hroom₂
      refine ⟨v', .head hgo ?_, hroom', hsame ▸ hnode, fun q hq => (hspares q hq).trans (hspares' q (hsame ▸ hq))⟩
      rwa [show copied + m = copied + min COPY_CHUNK m + (m - min COPY_CHUNK m) by omega]

/-- A name without a clash is not there. -/
theorem none_of_free {p : List Str} {name : Str} {names : List Str} (hnode : T.node v p = some (.directory names))
    (hfree : ∀ n ∈ names, ¬T.clash n name) : T.node v (p ++ [name]) = none := by
  by_contra hthere
  have hmem := frame.mem_of_isSome (r := []) hnode (Option.isSome_iff_ne_none.mpr hthere)
  exact hfree name hmem (law.clash_self name)

/-- A new file is copied: the target directory gets it, with the source's content. -/
theorem file_copied {dirs : List DirectoryCopy} {copied files : Nat} {source target : List Str} {name : Str} {names : List Str}
    (hsource : T.node v (source ++ [name]) = some (.file content)) (htarget : T.node v target = some (.directory names))
    (hplain : T.plain name) (hfree : ∀ n ∈ names, ¬T.clash n name) (hroom : T.room v (k + chunkPolls content.length + 1)) :
    ∃ v' names', Leads (CopyJob.step (F := F)) (⟨dirs, some { source, target, name }, copied, files⟩, v)
        (⟨dirs, none, copied + content.length, files + 1⟩, v') ∧ T.room v' k ∧
      T.node v' (target ++ [name]) = some (.file content) ∧ T.node v' target = some (.directory names') ∧
      names'.Perm (name :: names) ∧ ∀ q, q ≠ target → q ≠ target ++ [name] → T.Spares v v' q := by
  have hnone := none_of_free frame law htarget hfree
  have hapart : source ++ [name] ≠ target ++ [name] := fun heq => by
    rw [← heq, hsource] at hnone
    nomatch hnone
  have hfile : source ++ [name] ≠ target := fun heq => by
    rw [← heq, hsource] at htarget
    nomatch htarget
  have hself : target ≠ target ++ [name] := fun heq => absurd (congrArg List.length heq) (by simp)
  obtain ⟨dest, hdest, hopens⟩ := law.openDirPath_ok frame hroom htarget
  obtain ⟨entry, v₁, names', hcreate, hroom₁, hnew, hnames', hperm⟩ :=
    law.createFile v _ dest target name names hroom hopens htarget hplain hfree
  obtain ⟨hadds, hstands, _⟩ := (frame.createFile v dest target name hopens).ok hcreate
  have hentry : FileCopy.targetEntry (F := F) { source, target, name } v = .ok entry v₁ := by
    unfold FileCopy.targetEntry
    rw [bind_of_ok hdest, if_neg Bool.false_ne_true, bind_of_ok (law.requireFree_ok hroom hopens htarget hfree), hcreate]
  have hsource₁ := hadds.spares _ hfile hapart
  have hreader (entry : F.Entry) (hentry : T.stands v₁ entry (source ++ [name])) :
      ∃ reader, F.readerNew entry v₁ = .ok reader v₁ ∧ T.reads v₁ reader (source ++ [name]) 0 :=
    law.readerNew v₁ _ entry _ content hroom₁ hentry (hsource₁.node.trans hsource)
  obtain ⟨writer, hopen, happends⟩ := law.writerNew v₁ _ entry _ hroom₁ hstands hnew
  have hwriter := frame.writer_of_new v₁ entry _ writer v₁ hstands hopen
  have hroom₁' : T.room v₁ ((k + chunkPolls content.length - 1) + 1) := hroom₁
  obtain ⟨file', v₂, hchunk, hroom₂, _, hsame, hcopied, hspares⟩ :=
    chunk_ok frame law { source, target, name } hroom hroom₁' hapart hsource hentry hsource₁ hreader
      ⟨writer, hopen, hwriter, happends⟩ hnew
  replace hsame : file'.targetPath = target ++ [name] := hsame
  rw [Nat.sub_zero] at hchunk hcopied
  rw [Nat.zero_add] at hcopied
  have hgo := goes_stepFile dirs copied files hchunk
  have hboth {v' : V} (hspares' : ∀ q, q ≠ target ++ [name] → T.Spares v₁ v' q) :
      T.node v' target = some (.directory names') ∧ ∀ q, q ≠ target → q ≠ target ++ [name] → T.Spares v v' q :=
    ⟨(hspares' target hself).node.trans hnames', fun q hq hq' => (hadds.spares q hq hq').trans (hspares' q hq')⟩
  by_cases hempty : content.length = 0
  · obtain rfl := List.eq_nil_of_length_eq_zero hempty
    obtain ⟨hnames₂, hspares₂⟩ := hboth hspares
    exact ⟨v₂, names', .single hgo, hroom₂, hsame ▸ hcopied.target, hnames₂, hperm, hspares₂⟩
  · have hpos : 0 < COPY_CHUNK := by decide
    have hpolls : k + chunkPolls content.length - 1 = k + chunkPolls (content.length - min COPY_CHUNK content.length) := by
      unfold chunkPolls COPY_CHUNK
      omega
    rw [if_neg (by omega)] at hgo
    rw [hpolls] at hroom₂
    obtain ⟨v', hleads, hroom', hnode, hspares'⟩ := file_rest frame law (Nat.min_le_right _ _) rfl hcopied hroom₂
    obtain ⟨hnames₂, hspares₂⟩ := hboth fun q hq => (hspares q hq).trans (hspares' q (hsame ▸ hq))
    refine ⟨v', names', .head hgo ?_, hroom', hsame ▸ hnode, hnames₂, hperm, hspares₂⟩
    have hsum : copied + min COPY_CHUNK content.length + (content.length - min COPY_CHUNK content.length) =
      copied + content.length := by
      omega
    rwa [hsum] at hleads

end Files

end Ratputer
