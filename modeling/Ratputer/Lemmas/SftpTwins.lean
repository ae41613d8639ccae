import Ratputer.Lemmas.SftpCursors
import Ratputer.Lemmas.SftpVain

/-!
# Servers that differ in their cursors

Two servers on one volume that are equal but for the cursors of their open files. As long as these are good, a request is
answered by both in the same way.
-/

namespace Ratputer

open Effect

variable {V : Type} {F : Fat V} {Good : V → Prop}

/-! ## Forgetting cursors -/

def Handle.forget : Handle F → Handle F
  | .file f => .file f.forget
  | .dir d => .dir d

def ResizeJob.forget (job : ResizeJob F) : ResizeJob F := { job with file := job.file.forget }

/-- The server with no cursor kept. -/
def Server.forget (s : Server F) : Server F :=
  { s with
    handles := fun slot => (s.handles slot).map Handle.forget
    resize := s.resize.map ResizeJob.forget }

namespace Server

variable {s s' : Server F}

/-- Handle strings stand for the same slots. -/
theorem slotOf_forget (s : Server F) (token : List UInt8) : s.forget.slotOf token = s.slotOf token := by
  simp only [slotOf, forget, Option.isNone_map]

/-- The same slot is free. -/
theorem freeSlot_forget (s : Server F) : s.forget.freeSlot = s.freeSlot := by
  simp only [freeSlot, forget, Option.isNone_map]

/-- Handles have the same paths. -/
theorem handleComponents_forget (s : Server F) (slot : Slot) : s.forget.handleComponents slot = s.handleComponents slot := by
  unfold handleComponents forget
  dsimp only
  cases s.handles slot with
  | none => rfl
  | some handle => cases handle <;> rfl

/-- The file is open in a slot. -/
def Opened (s : Server F) (file : FileHandle F) : Prop := ∃ slot, s.handles slot = some (.file file)

end Server

/-- The cursors of all open files are good, apart from the files in `D`, and so are those of a file that a SETSTAT grows. -/
structure World.FreshBut (Good : V → Prop) (D : FileHandle F → Prop) (w : World F) : Prop where
  good : Good w.volume
  opened : ∀ file, w.server.Opened file → D file ∨ file.Fresh w.volume
  resize : ∀ job, w.server.resize = some job → job.Valid ∧ job.file.Fresh w.volume

/-- The second world keeps no cursors, and differs from the first in nothing else; the cursors of the first are good, apart from
those of the files in `D`. -/
structure TwinsBut (Good : V → Prop) (D : FileHandle F → Prop) (w w' : World F) : Prop where
  volume : w'.volume = w.volume
  server : w'.server = w.server.forget
  fresh : w.FreshBut Good D

/-- The second world keeps no cursors, and differs from the first in nothing else; the cursors of the first are good. -/
abbrev Twins (Good : V → Prop) (w w' : World F) : Prop := TwinsBut Good (fun _ => False) w w'

section

variable {α β : Type} {D D' : FileHandle F → Prop} {w w' : World F}

namespace World.FreshBut

/-- Fresh handles all are fresh but for some. -/
theorem weaken (h : w.FreshBut Good fun _ => False) : w.FreshBut Good D :=
  ⟨h.good, fun file hfile => .inr ((h.opened file hfile).resolve_left id), h.resize⟩

/-- A change of the volume that spares the files by the paths in `P`. -/
theorem spared (h : w.FreshBut Good D) {v : V} {P : List Str → Str → Prop} (hspares : F.Spares Good w.volume v P)
    (hopened : ∀ file, w.server.Opened file → D' file ∨ file.Bare ∨ P file.parent file.leaf ∧ ¬D file)
    (hresize : w.server.resize = none) : ({ w with volume := v } : World F).FreshBut Good D' := by
  refine ⟨hspares.good, fun file hfile => ?_, fun job hjob => nomatch hresize.symm.trans hjob⟩
  rcases hopened file hfile with hD | hbare | ⟨hP, hD⟩
  · exact .inl hD
  · exact .inr (hbare.fresh v)
  · exact .inr (((h.opened file hfile).resolve_left hD).kept (hspares.keeps _ _ hP))

/-- A change of the volume that spares all files. -/
theorem spared_all (h : w.FreshBut Good D) {v : V} (hspares : F.Spares Good w.volume v fun _ _ => True) :
    ({ w with volume := v } : World F).FreshBut Good D := by
  refine ⟨hspares.good, fun file hfile => ?_, fun job hjob => ?_⟩
  · exact (h.opened file hfile).imp_right fun hfresh => hfresh.kept (hspares.keeps _ _ trivial)
  · exact (h.resize job hjob).imp_right fun hfresh => hfresh.kept (hspares.keeps _ _ trivial)

/-- A change of the server: what is open was open before, or keeps no cursor. -/
theorem update (h : w.FreshBut Good D) {s : Server F}
    (hopened : ∀ file, s.Opened file → D' file ∨ file.Bare ∨ w.server.Opened file ∧ ¬D file)
    (hresize : ∀ job, s.resize = some job → job.Valid ∧ job.file.Bare ∨ w.server.resize = some job) :
    ({ w with server := s } : World F).FreshBut Good D' := by
  refine ⟨h.good, fun file hfile => ?_, fun job hjob => ?_⟩
  · rcases hopened file hfile with hD | hbare | ⟨hfile, hD⟩
    · exact .inl hD
    · exact .inr (hbare.fresh w.volume)
    · exact .inr ((h.opened file hfile).resolve_left hD)
  · rcases hresize job hjob with hbare | hjob
    · exact hbare.imp_right fun hbare => hbare.fresh w.volume
    · exact h.resize job hjob

end World.FreshBut

namespace TwinsBut

/-- Twins are twins but for some handles. -/
theorem weaken (h : Twins Good w w') : TwinsBut Good D w w' := ⟨h.volume, h.server, h.fresh.weaken⟩

/-- Twins agree in what does not depend on cursors. -/
theorem view_eq (h : TwinsBut Good D w w') {f : Server F → α} (hf : ∀ s, f s.forget = f s) : f w'.server = f w.server := by
  rw [h.server, hf w.server]

/-- Twins read handle strings alike. -/
theorem slotOf (h : TwinsBut Good D w w') (token : List UInt8) : w'.server.slotOf token = w.server.slotOf token :=
  h.view_eq (f := fun s => s.slotOf token) fun s => s.slotOf_forget token

/-- The twin's handle in a slot is the one that has forgotten. -/
theorem handles (h : TwinsBut Good D w w') (slot : Slot) :
    w'.server.handles slot = (w.server.handles slot).map Handle.forget := by
  rw [h.server]
  rfl

/-- A change of the volume that spares all files. -/
theorem spared_all (h : TwinsBut Good D w w') {v : V} (hspares : F.Spares Good w.volume v fun _ _ => True) :
    TwinsBut Good D { w with volume := v } { w' with volume := v } := ⟨rfl, h.server, h.fresh.spared_all hspares⟩

/-- A change of the volume that spares the files by the paths in `P`. -/
theorem spared (h : TwinsBut Good D w w') {v : V} {P : List Str → Str → Prop} (hspares : F.Spares Good w.volume v P)
    (hresize : w.server.resize = none)
    (hopened : ∀ file, w.server.Opened file → D' file ∨ file.Bare ∨ P file.parent file.leaf ∧ ¬D file) :
    TwinsBut Good D' { w with volume := v } { w' with volume := v } := ⟨rfl, h.server, h.fresh.spared hspares hopened hresize⟩

/-- A change of the server by which no cursor is taken up. -/
theorem update (h : TwinsBut Good D w w') {f : Server F → Server F} (hforget : f w.server.forget = (f w.server).forget)
    (hopened : ∀ file, (f w.server).Opened file → D' file ∨ file.Bare ∨ w.server.Opened file ∧ ¬D file)
    (hresize : ∀ job, (f w.server).resize = some job → job.Valid ∧ job.file.Bare ∨ w.server.resize = some job) :
    TwinsBut Good D' { w with server := f w.server } { w' with server := f w'.server } :=
  ⟨h.volume, by rw [← hforget, ← h.server], h.fresh.update hopened hresize⟩

end TwinsBut

namespace Twins

/-- A change of the server that leaves the open files and the growing one alone. -/
theorem update_plain (h : Twins Good w w') {f : Server F → Server F} (hforget : ∀ s : Server F, (f s).forget = f s.forget)
    (hopened : ∀ s file, (f s).Opened file → s.Opened file) (hresize : ∀ s, (f s).resize = s.resize) :
    Twins Good { w with server := f w.server } { w' with server := f w'.server } := by
  refine TwinsBut.update h (hforget w.server).symm (fun file hfile => .inr (.inr ⟨hopened _ file hfile, id⟩)) fun job hjob => ?_
  exact .inr ((hresize _).symm.trans hjob)

/-- Twins that queue the same reply are twins. -/
theorem emit (h : Twins Good w w') (bytes : List UInt8) : Twins Good (w.emit bytes) (w'.emit bytes) :=
  h.update_plain (f := fun s => { s with out := s.out ++ bytes }) (fun _ => rfl) (fun _ _ hfile => hfile) fun _ => rfl

/-- Twins that end are twins. -/
theorem setFatal (h : Twins Good w w') : Twins Good w.setFatal w'.setFatal :=
  h.update_plain (f := fun s => { s with fatal := true }) (fun _ => rfl) (fun _ _ hfile => hfile) fun _ => rfl

end Twins

/-! ## Rules -/

/-- A checked result is a look. -/
theorem looks_check (r : Except Status α) (w : World F) : Looks (check r) w r := by
  cases r <;> rfl

/-- Reading the fields of a request is a look. -/
theorem looks_parse (reader : ReaderM α) (body : List UInt8) (w : World F) :
    Looks (parse reader body) w (match reader body with | some r => .ok r | none => .error .badMessage) := by
  unfold parse
  cases reader body <;> rfl

/-- Looking up a handle string is one. -/
theorem looks_slotOf (token : List UInt8) (w : World F) : Looks (slotOf token) w (w.server.slotOf token) :=
  looks_check (w.server.slotOf token) w

/-- What a search comes to. -/
def Fat.outcome (op : FatM V α) (v : V) : Except FatError α :=
  match op v with
  | .ok a _ => .ok a
  | .error e _ => .error e

/-- So is a call that leaves the volume alone. -/
theorem looks_call {op : FatM V α} (hop : Leaves id op) (w : World F) : Looks (call op) w (.ok (Fat.outcome op w.volume)) := by
  have hlook := hop w.volume
  unfold Looks call Fat.outcome
  cases hrun : op w.volume with
  | ok a v =>
    obtain rfl : v = w.volume := (hlook.ok hrun).1
    rfl
  | error e v =>
    obtain rfl : v = w.volume := (hlook.error hrun).1
    rfl

variable {R : World F → World F → Prop} {P : β → β → Prop} {f f' : α → SftpM F β}

/-- Both check the same result. -/
theorem alike_check {r : Except Status α} (hR : R w w') (hf : ∀ a, r = .ok a → Alike R P (f a) (f' a) w w') :
    Alike R P (check r >>= f) (check r >>= f') w w' := alike_look (looks_check r w) (looks_check r w') (fun _ _ => hR) hf

/-- Both read the same fields. -/
theorem alike_parse {reader : ReaderM α} {body : List UInt8} {f f' : α × List UInt8 → SftpM F β} (hR : R w w')
    (hf : ∀ r, reader body = some r → Alike R P (f r) (f' r) w w') :
    Alike R P (parse reader body >>= f) (parse reader body >>= f') w w' := by
  refine alike_look (looks_parse reader body w) (looks_parse reader body w') (fun _ _ => hR) fun r hr => hf r ?_
  cases hread : reader body with
  | some r' =>
    rw [hread] at hr
    injection hr with hr
    rw [hr]
  | none =>
    rw [hread] at hr
    nomatch hr

/-- Both look up the same handle string. -/
theorem alike_slotOf (h : TwinsBut Good D w w') {token : List UInt8} {f f' : Slot → SftpM F β} (hR : R w w')
    (hf : ∀ slot, w.server.slotOf token = .ok slot → Alike R P (f slot) (f' slot) w w') :
    Alike R P (slotOf token >>= f) (slotOf token >>= f') w w' := by
  have hlook := looks_slotOf token w'
  rw [h.slotOf token] at hlook
  exact alike_look (looks_slotOf token w) hlook (fun _ _ => hR) hf

/-- A field that does not depend on cursors. -/
theorem alike_view (h : TwinsBut Good D w w') {g : Server F → α} (hg : ∀ s, g s.forget = g s)
    (hf : Alike R P (f (g w.server)) (f' (g w.server)) w w') : Alike R P (view g >>= f) (view g >>= f') w w' := by
  show Alike R P (f (g w.server)) (f' (g w'.server)) w w'
  rw [h.view_eq hg]
  exact hf

/-- Both see the volume's same figures. -/
theorem alike_viewVolume (h : TwinsBut Good D w w') {g : V → α} (hf : Alike R P (f (g w.volume)) (f' (g w.volume)) w w') :
    Alike R P (viewVolume g >>= f) (viewVolume g >>= f') w w' := by
  show Alike R P (f (g w.volume)) (f' (g w'.volume)) w w'
  rw [h.volume]
  exact hf

/-- A search of the driver. -/
theorem alike_search (h : TwinsBut Good D w w') {op : FatM V α} {f f' : Except FatError α → SftpM F β} (hop : Leaves id op)
    (hf : Alike R P (f (Fat.outcome op w.volume)) (f' (Fat.outcome op w.volume)) w w') :
    Alike R P (call op >>= f) (call op >>= f') w w' := by
  have hlook := looks_call hop w'
  rw [h.volume] at hlook
  exact alike_look (looks_call hop w) hlook nofun fun a ha => by
    injection ha with ha
    rw [← ha]
    exact hf

/-- A driver call that may change the volume. -/
theorem alike_call (hvolume : w'.volume = w.volume) {op : FatM V α} {f f' : Except FatError α → SftpM F β}
    (hok : ∀ a v, op w.volume = .ok a v → Alike R P (f (.ok a)) (f' (.ok a)) { w with volume := v } { w' with volume := v })
    (herror : ∀ e v, op w.volume = .error e v →
      Alike R P (f (.error e)) (f' (.error e)) { w with volume := v } { w' with volume := v }) :
    Alike R P (call op >>= f) (call op >>= f') w w' := by
  cases hrun : op w.volume with
  | ok a v =>
    have hcall : call op w = .ok (.ok a) { w with volume := v } := by
      unfold call
      rw [hrun]
    have hcall' : call op w' = .ok (.ok a) { w' with volume := v } := by
      unfold call
      rw [hvolume, hrun]
    unfold Alike
    rw [bind_of_ok hcall, bind_of_ok hcall']
    exact hok a v hrun
  | error e v =>
    have hcall : call op w = .ok (.error e) { w with volume := v } := by
      unfold call
      rw [hrun]
    have hcall' : call op w' = .ok (.error e) { w' with volume := v } := by
      unfold call
      rw [hvolume, hrun]
    unfold Alike
    rw [bind_of_ok hcall, bind_of_ok hcall']
    exact herror e v hrun

/-- A driver call that may change the volume, an error becoming a status. -/
theorem alike_callOr (hvolume : w'.volume = w.volume) {op : FatM V α} {status : Status}
    (hok : ∀ a v, op w.volume = .ok a v → Alike R P (f a) (f' a) { w with volume := v } { w' with volume := v })
    (herror : ∀ e v, op w.volume = .error e v → R { w with volume := v } { w' with volume := v }) :
    Alike R P (callOr op status >>= f) (callOr op status >>= f') w w' := by
  unfold callOr
  simp only [bind_assoc]
  refine alike_call hvolume (fun a v hrun => ?_) fun e v hrun => ?_
  · exact hok a v hrun
  · exact alike_bind (alike_throw (Q := fun _ _ => False) (herror e v hrun)) fun _ _ _ _ h _ => h.elim

/-- A search of the driver whose error becomes a status. -/
theorem alike_search_or (h : TwinsBut Good D w w') {op : FatM V α} {status : Status} (hop : Leaves id op) (hR : R w w')
    (hf : ∀ a, op w.volume = .ok a w.volume → Alike R P (f a) (f' a) w w') :
    Alike R P (callOr op status >>= f) (callOr op status >>= f') w w' := by
  have hlook := hop w.volume
  have hw' : ({ w' with volume := w.volume } : World F) = w' := by rw [← h.volume]
  refine alike_callOr h.volume (fun a v hrun => ?_) fun e v hrun => ?_
  · obtain rfl : v = w.volume := (hlook.ok hrun).1
    rw [hw']
    exact hf a hrun
  · obtain rfl : v = w.volume := (hlook.error hrun).1
    rw [hw']
    exact hR

/-- The entry at a path. -/
theorem looks_findEntry (law : Cursors F Good) (parent : List Str) (leaf : Str) (w : World F) :
    Looks (findEntry parent leaf) w
      (match F.found w.volume parent leaf with
        | some entry => .ok entry
        | none => .error .noSuchFile) := by
  have hcall := looks_call (law.findIn parent leaf) w
  unfold Looks at hcall ⊢
  unfold findEntry
  rw [bind_of_ok hcall]
  unfold Fat.found Fat.outcome
  cases F.findIn parent leaf w.volume with
  | error e v => rfl
  | ok entry v => cases entry <;> rfl

/-- Both find the same entry. -/
theorem alike_findEntry (law : Cursors F Good) (h : TwinsBut Good D w w') {parent : List Str} {leaf : Str}
    {f f' : F.Entry → SftpM F β} (hR : F.found w.volume parent leaf = none → R w w')
    (hf : ∀ entry, F.found w.volume parent leaf = some entry → Alike R P (f entry) (f' entry) w w') :
    Alike R P (findEntry parent leaf >>= f) (findEntry parent leaf >>= f') w w' := by
  have hlook := looks_findEntry law parent leaf w
  have hlook' := looks_findEntry law parent leaf w'
  rw [h.volume] at hlook'
  cases hfound : F.found w.volume parent leaf with
  | none =>
    rw [hfound] at hlook hlook'
    exact alike_look hlook hlook' (fun _ _ => hR hfound) nofun
  | some entry =>
    rw [hfound] at hlook hlook'
    exact alike_look hlook hlook' nofun fun _ heq => Except.ok.inj heq ▸ hf entry hfound

/-- The directory at a path. -/
theorem alike_openDirEntry (law : Cursors F Good) (h : TwinsBut Good D w w') {components : List Str} {f f' : F.Dir → SftpM F β}
    (hR : R w w') (hf : ∀ dir, F.openDirPath components w.volume = .ok dir w.volume → Alike R P (f dir) (f' dir) w w') :
    Alike R P (openDirEntry components >>= f) (openDirEntry components >>= f') w w' :=
  alike_search_or h (law.openDirPath components) hR hf

/-- The file of a slot. -/
theorem alike_fileAt (h : TwinsBut Good D w w') {slot : Slot} {f f' : FileHandle F → SftpM F β} (hR : R w w')
    (hf : ∀ file, w.server.handles slot = some (.file file) → Alike R P (f file) (f' file.forget) w w') :
    Alike R P (fileAt slot >>= f) (fileAt slot >>= f') w w' := by
  show Alike R P (check (w.server.file slot) >>= f) (check (w'.server.file slot) >>= f') w w'
  have hneither {status : Status} : Alike R P (check (.error status) >>= f) (check (.error status) >>= f') w w' :=
    alike_check hR nofun
  unfold Server.file
  rw [h.handles slot]
  cases hslot : w.server.handles slot with
  | none => exact hneither
  | some handle =>
    cases handle with
    | dir dir => exact hneither
    | file file => exact hf file hslot

/-- Both queue the same reply. -/
theorem alike_reply (h : Twins Good w w') (bytes : List UInt8) : Alike (Twins Good) Eq (reply bytes) (reply bytes) w w' :=
  ⟨rfl, h.emit bytes⟩

/-- Both change the server alike, by a change that forgetting does not see. -/
theorem alike_update (h : Twins Good w w') {f : Server F → Server F} (hforget : ∀ s : Server F, (f s).forget = f s.forget)
    (hopened : ∀ s file, (f s).Opened file → s.Opened file) (hresize : ∀ s, (f s).resize = s.resize) :
    Alike (Twins Good) Eq (update f) (update f) w w' := ⟨rfl, h.update_plain hforget hopened hresize⟩

end

/-! ## Requests -/

section

variable {w w' : World F}

/-- A handle that keeps no cursor. -/
def Handle.Bare (handle : Handle F) : Prop := ∀ file, handle = .file file → file.Bare

/-- A handle without cursors has nothing to forget. -/
theorem Handle.Bare.forget_eq {handle : Handle F} (h : handle.Bare) : handle.forget = handle := by
  cases handle with
  | dir dir => rfl
  | file file =>
    obtain ⟨hread, happend⟩ := h file rfl
    unfold Handle.forget FileHandle.forget
    rw [← hread, ← happend]

/-- A directory handle has no cursors. -/
theorem Handle.bare_dir (dir : DirHandle) : (Handle.dir dir : Handle F).Bare := nofun

/-- What a slot holds is forgotten with the rest. -/
theorem Server.forget_update (s : Server F) (slot : Slot) (handle : Option (Handle F)) :
    (fun i => (Function.update s.handles slot handle i).map Handle.forget) =
      Function.update s.forget.handles slot (handle.map Handle.forget) := by
  funext i
  by_cases hi : i = slot
  · subst hi
    rw [Function.update_self, Function.update_self]
  · rw [Function.update_of_ne hi, Function.update_of_ne hi]
    rfl

/-- A slot is closed, or given a handle that keeps no cursor. -/
theorem Twins.update_slot (h : Twins Good w w') {slot : Slot} (handle : Option (Handle F)) (f : Server F → Server F)
    (hbare : ∀ x, handle = some x → x.Bare)
    (hhandles : ∀ s, (f s).handles = Function.update s.handles slot handle)
    (hforget : ∀ s, (f s).forget = { f s.forget with handles := fun i => ((f s).handles i).map Handle.forget })
    (hresize : ∀ s, (f s).resize = s.resize) : Twins Good { w with server := f w.server } { w' with server := f w'.server } := by
  have hhandle : handle.map Handle.forget = handle := by
    cases handle with
    | none => rfl
    | some x => rw [Option.map_some, (hbare x rfl).forget_eq]
  refine TwinsBut.update h ?_ (fun file hfile => .inr ?_) fun _ hjob => .inr ((hresize _).symm.trans hjob)
  · rw [hforget, hhandles, Server.forget_update, hhandle, ← hhandles]
  · obtain ⟨i, hi⟩ := hfile
    rw [hhandles] at hi
    by_cases heq : i = slot
    · rw [heq, Function.update_self] at hi
      exact .inl (hbare _ hi file rfl)
    · rw [Function.update_of_ne heq] at hi
      exact .inr ⟨⟨i, hi⟩, fun h => h⟩

/-- Both answer with the same handle string. -/
theorem alike_handleReply (h : Twins Good w w') (id : Nat) (slot : Slot) :
    Alike (Twins Good) Eq (handleReply id slot) (handleReply id slot) w w' :=
  alike_view h (fun _ => rfl) (alike_reply h _)

/-- A handle without cursors is given out. -/
theorem alike_allocate (h : Twins Good w w') (id : Nat) {handle : Handle F} (hbare : handle.Bare) :
    Alike (Twins Good) Eq (do let slot ← allocate handle; handleReply id slot)
      (do let slot ← allocate handle; handleReply id slot) w w' := by
  refine alike_bind (Q := Eq) ?_ fun slot slot' _ _ hslot h => hslot ▸ alike_handleReply h id slot
  unfold allocate
  refine alike_view h (fun s => s.freeSlot_forget) ?_
  split
  · rename_i slot hfree
    refine alike_bind (Q := Eq) ⟨rfl, ?_⟩ fun _ _ _ _ _ h => alike_pure rfl h
    exact h.update_slot (some handle) (·.insert slot handle) (fun x heq => Option.some.inj heq ▸ hbare)
      (fun _ => rfl) (fun _ => rfl) fun _ => rfl
  · exact alike_throw h

/-- REALPATH. -/
theorem alike_realpath (h : Twins Good w w') (id : Nat) (body : List UInt8) :
    Alike (Twins Good) Eq (realpath id body) (realpath id body) w w' := alike_parse h fun _ _ => alike_reply h _

/-- STAT of a path's components. -/
theorem alike_statComponents (law : Cursors F Good) (h : Twins Good w w') (id : Nat) (components : List Str) (ctx : Ctx) :
    Alike (Twins Good) Eq (statComponents id components ctx) (statComponents id components ctx) w w' := by
  unfold statComponents
  dsimp only
  split
  · exact alike_reply h _
  · refine alike_findEntry law h (fun _ => h) fun entry _ => alike_reply h _

/-- STAT and LSTAT. -/
theorem alike_statPath (law : Cursors F Good) (h : Twins Good w w') (id : Nat) (body : List UInt8) (ctx : Ctx) :
    Alike (Twins Good) Eq (statPath id body ctx) (statPath id body ctx) w w' :=
  alike_parse h fun _ _ => alike_statComponents law h _ _ _

/-- The components that a handle addresses. -/
theorem alike_components {β : Type} {P : β → β → Prop} (h : Twins Good w w') {slot : Slot} {f f' : List Str → SftpM F β}
    (hf : ∀ components, w.server.handleComponents slot = .ok components → Alike (Twins Good) P (f components) (f' components) w w') :
    Alike (Twins Good) P (view (·.handleComponents slot) >>= fun r => check r >>= f)
      (view (·.handleComponents slot) >>= fun r => check r >>= f') w w' :=
  alike_view h (fun s => s.handleComponents_forget slot) (alike_check h hf)

/-- FSTAT. -/
theorem alike_fstat (law : Cursors F Good) (h : Twins Good w w') (id : Nat) (body : List UInt8) (ctx : Ctx) :
    Alike (Twins Good) Eq (fstat id body ctx) (fstat id body ctx) w w' :=
  alike_parse h fun _ _ => alike_slotOf h h fun _ _ => alike_components h fun _ _ => alike_statComponents law h _ _ _

/-- OPENDIR. -/
theorem alike_opendir (law : Cursors F Good) (h : Twins Good w w') (id : Nat) (body : List UInt8) :
    Alike (Twins Good) Eq (opendir id body) (opendir id body) w w' := by
  refine alike_parse h fun r _ => alike_search h (law.openDirPath _) ?_
  split
  · exact alike_allocate h id (Handle.bare_dir _)
  · split
    · refine alike_search h (law.findIn _ _) ?_
      split
      · exact alike_throw h
      · exact alike_throw h
    · exact alike_throw h

/-- READDIR. -/
theorem alike_readdir (law : Cursors F Good) (h : Twins Good w w') (id : Nat) (body : List UInt8) (ctx : Ctx) :
    Alike (Twins Good) Eq (readdir id body ctx) (readdir id body ctx) w w' := by
  refine alike_parse h fun r _ => alike_slotOf h h fun slot _ => ?_
  refine alike_bind (Q := fun handle handle' => handle' = handle.map Handle.forget) ⟨h.handles slot, h⟩ ?_
  rintro handle _ w₁ w₁' rfl h
  cases handle with
  | none => exact alike_throw h
  | some handle =>
    cases handle with
    | file file => exact alike_throw h
    | dir dir =>
      refine alike_openDirEntry law h h fun fatDir _ => alike_search_or h (law.entries fatDir) h fun records _ => ?_
      refine alike_check h fun r _ => ?_
      obtain ⟨entries, count⟩ := r
      refine alike_bind (Q := Eq) ⟨rfl, ?_⟩ fun _ _ _ _ _ h => alike_ite (fun _ => alike_reply h _) fun _ => alike_reply h _
      exact h.update_slot _ (fun s => { s with
        handles := Function.update s.handles slot (some (.dir { dir with next := dir.next + count })) })
        (fun x heq => Option.some.inj heq ▸ Handle.bare_dir _) (fun _ => rfl) (fun _ => rfl) fun _ => rfl

/-- READ. -/
theorem alike_readFile (law : Cursors F Good) (h : Twins Good w w') (id : Nat) (body : List UInt8) :
    Alike (Twins Good) Eq (readFile id body) (readFile id body) w w' := by
  refine alike_parse h fun r _ => alike_slotOf h h fun slot _ => alike_fileAt h h fun file _ => ?_
  refine alike_guard h fun _ => alike_findEntry law h (fun _ => h) fun entry _ => ?_
  refine alike_ite (fun _ => alike_reply h _) fun _ => ?_
  exact alike_update h (fun _ => rfl) (fun _ _ hfile => hfile) fun _ => rfl

/-- CLOSE. -/
theorem alike_close (h : Twins Good w w') (id : Nat) (body : List UInt8) :
    Alike (Twins Good) Eq (close id body) (close id body) w w' := by
  refine alike_parse h fun r _ => alike_slotOf h h fun slot _ => ?_
  refine alike_bind (Q := Eq) ⟨rfl, ?_⟩ fun _ _ _ _ _ h => alike_reply h _
  exact h.update_slot none (fun s => { s with handles := Function.update s.handles slot none }) nofun
    (fun _ => rfl) (fun _ => rfl) fun _ => rfl

/-- The check that a path is there. -/
theorem alike_requireEntry {β : Type} {P : β → β → Prop} (law : Cursors F Good) (h : Twins Good w w') (components : List Str)
    {f f' : Unit → SftpM F β} (hf : Alike (Twins Good) P (f ()) (f' ()) w w') :
    Alike (Twins Good) P (requireEntry components >>= f) (requireEntry components >>= f') w w' := by
  unfold requireEntry
  split
  · simp only [bind_assoc]
    exact alike_findEntry law h (fun _ => h) fun _ _ => hf
  · exact hf

/-- The answer to statvfs. -/
theorem alike_statvfsReply (law : Cursors F Good) (h : Twins Good w w') (id : Nat) (components : List Str) :
    Alike (Twins Good) Eq (statvfsReply id components) (statvfsReply id components) w w' := by
  refine alike_requireEntry law h components (alike_viewVolume h ?_)
  split
  · exact alike_throw h
  · refine alike_viewVolume h (alike_guard h fun _ => alike_viewVolume h (alike_viewVolume h ?_))
    exact alike_reply h _

/-- A call that spares all files. -/
theorem alike_harmless {α β : Type} {P : β → β → Prop} {op : FatM V α} {f f' : Except FatError α → SftpM F β} (h : Twins Good w w')
    (hop : F.Changes Good w.volume op fun _ _ => True)
    (hf : ∀ r v, Twins Good { w with volume := v } { w' with volume := v } →
      Alike (Twins Good) P (f r) (f' r) { w with volume := v } { w' with volume := v }) :
    Alike (Twins Good) P (call op >>= f) (call op >>= f') w w' :=
  alike_call h.volume (fun a v hrun => hf (.ok a) v (h.spared_all (hop.ok hrun))) fun e v hrun =>
    hf (.error e) v (h.spared_all (hop.error hrun))

/-- EXTENDED. -/
theorem alike_extended (law : Cursors F Good) (h : Twins Good w w') (id : Nat) (body : List UInt8) :
    Alike (Twins Good) Eq (extended id body) (extended id body) w w' := by
  refine alike_parse h fun r _ => alike_ite (fun _ => alike_reply h _) fun _ => ?_
  refine alike_ite (fun _ => ?_) fun _ => alike_ite (fun _ => ?_) fun _ => alike_ite (fun _ => ?_) fun _ => alike_throw h
  · refine alike_parse h fun _ _ => alike_slotOf h h fun slot _ => alike_fileAt h h fun file _ => ?_
    have hsync := law.sync w.volume h.fresh.good
    refine alike_callOr h.volume (fun _ v hrun => ?_) fun e v hrun => h.spared_all (hsync.error hrun)
    exact alike_reply (h.spared_all (hsync.ok hrun)) _
  · exact alike_parse h fun _ _ => alike_statvfsReply law h _ _
  · refine alike_parse h fun _ _ => alike_slotOf h h fun slot _ => alike_components h fun _ _ => alike_statvfsReply law h _ _

/-! ## Metadata -/

/-- Whatever the server is, the part of a handler ends with `r`, and moves the volume from `v` to `v'`. -/
def Gives {α : Type} (m : SftpM F α) (v : V) (r : Except Status α) (v' : V) : Prop :=
  ∀ s : Server F, m ⟨s, v⟩ =
    match r with
    | .ok a => .ok a ⟨s, v'⟩
    | .error status => .error status ⟨s, v'⟩

/-- A call that succeeds gives its value. -/
theorem gives_callOr {α : Type} {op : FatM V α} {status : Status} {v v' : V} {a : α} (h : op v = .ok a v') :
    Gives (F := F) (callOr op status) v (.ok a) v' := by
  intro s
  have hcall : call op (⟨s, v⟩ : World F) = .ok (.ok a) ⟨s, v'⟩ := by
    unfold call
    rw [h]
  unfold callOr
  exact bind_of_ok hcall

/-- A part that gives a value goes on with it. -/
theorem Gives.bind {α β : Type} {m : SftpM F α} {f : α → SftpM F β} {v v' v'' : V} {a : α} {r : Except Status β}
    (h : Gives m v (.ok a) v') (hf : Gives (f a) v' r v'') : Gives (m >>= f) v r v'' := fun s =>
  (bind_of_ok (h s)).trans (hf s)

/-- A part that gives a status ends there. -/
theorem Gives.bind_error {α β : Type} {m : SftpM F α} {f : α → SftpM F β} {v v' : V} {status : Status}
    (h : Gives m v (.error status) v') : Gives (m >>= f) v (.error status) v' := fun s => bind_of_error (h s)

/-- A checked result gives itself. -/
theorem gives_check {α : Type} (r : Except Status α) (v : V) : Gives (F := F) (check r) v r v := fun _ => by
  cases r <;> rfl

/-- An entry that is there takes its times, when they fit. -/
theorem applyTimes_spares (law : Cursors F Good) {v : V} (hgood : Good v) {entry : F.Entry} (hknown : F.Known v entry)
    (attrs : RequestedAttrs) (clock : ClockConfig) :
    ∃ r v', F.Spares Good v v' (fun _ _ => True) ∧ Gives (applyTimes entry attrs clock) v r v' ∧
      (validateAttrs attrs clock = .ok () → r = .ok ()) := by
  unfold applyTimes
  cases htimes : attrs.times with
  | none => exact ⟨.ok (), v, .refl hgood _, fun _ => rfl, fun _ => rfl⟩
  | some times =>
    obtain ⟨atime, mtime⟩ := times
    dsimp only
    cases hm : fatTime mtime clock with
    | error status =>
      refine ⟨.error status, v, .refl hgood _, (gives_check _ v).bind_error, fun hvalid => ?_⟩
      obtain ⟨_, modified, hmodified⟩ := (validateAttrs_ok hvalid).2 atime mtime htimes
      nomatch hm.symm.trans hmodified
    | ok modified =>
      cases ha : fatTime atime clock with
      | error status =>
        refine ⟨.error status, v, .refl hgood _, (gives_check _ v).bind (gives_check _ v).bind_error, fun hvalid => ?_⟩
        obtain ⟨⟨accessed, haccessed⟩, _⟩ := (validateAttrs_ok hvalid).2 atime mtime htimes
        nomatch ha.symm.trans haccessed
      | ok accessed =>
        obtain ⟨v', hset, hspares⟩ := law.setTimes v entry modified accessed.date hgood hknown
        exact ⟨.ok (), v', hspares, (gives_check _ v).bind ((gives_check _ v).bind (gives_callOr hset)), fun _ => rfl⟩

/-- The read-only bit spares every file's content and cursors. -/
theorem applyPermissions_spares (law : Cursors F Good) {v : V} (hgood : Good v) {entry : F.Entry} (hknown : F.Known v entry)
    (attrs : RequestedAttrs) :
    ∃ v', F.Spares Good v v' (fun _ _ => True) ∧ Gives (applyPermissions entry attrs) v (.ok ()) v' := by
  unfold applyPermissions
  cases attrs.permissions with
  | none => exact ⟨v, .refl hgood _, fun _ => rfl⟩
  | some permissions =>
    obtain ⟨v', hset, hspares⟩ := law.setAttributes v entry _ hgood hknown
    exact ⟨v', hspares, gives_callOr hset⟩

/-- An entry that is there takes its metadata, when the times fit. -/
theorem applyMetadata_spares (law : Cursors F Good) {v : V} (hgood : Good v) {entry : F.Entry} (hknown : F.Known v entry)
    (attrs : RequestedAttrs) (clock : ClockConfig) :
    ∃ r v', F.Spares Good v v' (fun _ _ => True) ∧ Gives (applyMetadata entry attrs clock) v r v' ∧
      (validateAttrs attrs clock = .ok () → r = .ok ()) := by
  obtain ⟨r, v₁, hspares, htimes, hvalid⟩ := applyTimes_spares law hgood hknown attrs clock
  cases r with
  | error status => exact ⟨.error status, v₁, hspares, htimes.bind_error, hvalid⟩
  | ok _ =>
    obtain ⟨v₂, hspares', hpermissions⟩ := applyPermissions_spares law hspares.good (hknown.spared hspares) attrs
    exact ⟨.ok (), v₂, hspares.trans hspares', htimes.bind hpermissions, fun _ => rfl⟩

/-- Metadata of an entry that is there. -/
theorem alike_applyMetadata {β : Type} {P : β → β → Prop} {R : World F → World F → Prop} {D : FileHandle F → Prop}
    (law : Cursors F Good) (h : TwinsBut Good D w w') {entry : F.Entry} (hknown : F.Known w.volume entry) {attrs : RequestedAttrs}
    {clock : ClockConfig} {f f' : Unit → SftpM F β}
    (hf : ∀ v, TwinsBut Good D { w with volume := v } { w' with volume := v } →
      Alike R P (f ()) (f' ()) { w with volume := v } { w' with volume := v })
    (herror : validateAttrs attrs clock ≠ .ok () → ∀ v, TwinsBut Good D { w with volume := v } { w' with volume := v } →
      R { w with volume := v } { w' with volume := v }) :
    Alike R P (applyMetadata entry attrs clock >>= f) (applyMetadata entry attrs clock >>= f') w w' := by
  obtain ⟨r, v, hspares, hgives, hvalid⟩ := applyMetadata_spares law h.fresh.good hknown attrs clock
  have hrun := hgives w.server
  have hrun' := hgives w'.server
  rw [← h.volume] at hrun'
  unfold Alike
  cases r with
  | ok _ =>
    rw [bind_of_ok hrun, bind_of_ok hrun']
    exact hf v (h.spared_all hspares)
  | error status =>
    rw [bind_of_error hrun, bind_of_error hrun']
    exact ⟨rfl, herror (fun hok => nomatch hvalid hok) v (h.spared_all hspares)⟩

/-- MKDIR. -/
theorem alike_mkdir (law : Cursors F Good) (h : Twins Good w w') (id : Nat) (body : List UInt8) (ctx : Ctx) :
    Alike (Twins Good) Eq (mkdir id body ctx) (mkdir id body ctx) w w' := by
  refine alike_parse h fun r _ => alike_check h fun _ _ => alike_guard h fun _ => alike_check h fun path _ => ?_
  refine alike_openDirEntry law h h fun dir _ => alike_harmless h (law.createDir _ _ _ h.fresh.good) fun r v h => ?_
  split
  · refine alike_findEntry law h (fun _ => h) fun entry hfound => ?_
    refine alike_applyMetadata law h (Fat.Named.known ⟨_, _, hfound⟩) (fun v h => alike_reply h _) fun _ v h => h
  · exact alike_throw h
  · exact alike_throw h

end

/-! ## Requests that strand a cursor -/

/-- A file that keeps a cursor is open by a path in `struck`, and is not among those in `dropped`. -/
def Server.Strands (s : Server F) (struck : List Str → Str → Prop) (dropped : FileHandle F → Prop) : Prop :=
  ∃ file, s.Opened file ∧ ¬file.Bare ∧ struck file.parent file.leaf ∧ ¬dropped file

/-- The entry of a file is cut, and a file that is open by another path keeps a cursor on it. -/
def Server.Cuts (s : Server F) (v : V) (parent : List Str) (leaf : Str) (entry : F.Entry) (size : Nat) : Prop :=
  (∃ v', F.truncate entry size v = .ok () v') ∧ s.Strands (fun parent leaf => F.found v parent leaf = some entry) fun file =>
    samePath file.parent file.leaf parent leaf = true

/-- A SETSTAT that passes its checks cuts its file. -/
def World.Shrinks (w : World F) (components : List Str) (attrs : RequestedAttrs) (ctx : Ctx) : Prop :=
  ∃ parent leaf entry size, components = parent ++ [leaf] ∧ validateAttrs attrs ctx.clock = .ok () ∧
    F.found w.volume parent leaf = some entry ∧ entry.isDirectory = false ∧ entry.readOnly = false ∧
    attrs.size = some size ∧ size < entry.len ∧ w.server.Cuts w.volume parent leaf entry size

/-- The fields of a RENAME. -/
def renameRequest : ReaderM (Str × Str) := do
  let source ← Reader.path
  let target ← Reader.path
  return (source, target)

/-- The fields of a SETSTAT. -/
def setstatRequest : ReaderM (Str × RequestedAttrs) := do
  let path ← Reader.path
  let attrs ← Reader.attrs
  return (path, attrs)

/-- The fields of an FSETSTAT. -/
def fsetstatRequest : ReaderM (List UInt8 × RequestedAttrs) := do
  let token ← Reader.string
  let attrs ← Reader.attrs
  return (token, attrs)

/-- A request that passes its checks removes, renames or cuts a file while a cursor on it is kept, under a path whose cursors it
does not drop. -/
inductive World.Disturbs (w : World F) (ctx : Ctx) : Nat → List UInt8 → Prop
  | remove {body rest : List UInt8} {path leaf : Str} {parent : List Str} {entry : F.Entry} {v : V}
      (hpath : Reader.path body = some (path, rest)) (hsplit : resolve [] path = parent ++ [leaf])
      (hfound : F.found w.volume parent leaf = some entry) (hfile : entry.isDirectory = false)
      (hwritable : entry.readOnly = false) (hdelete : F.delete entry w.volume = .ok () v)
      (h : w.server.Strands (fun parent leaf => F.found w.volume parent leaf = some entry) fun _ => False) :
      Disturbs w ctx FXP_REMOVE body
  | rmdir {body rest : List UInt8} {path leaf : Str} {parent : List Str} {entry : F.Entry} {v : V}
      (hpath : Reader.path body = some (path, rest)) (hsplit : resolve [] path = parent ++ [leaf])
      (hfound : F.found w.volume parent leaf = some entry) (hdirectory : entry.isDirectory = true)
      (hdelete : F.delete entry w.volume = .ok () v)
      (h : w.server.Strands (fun parent leaf => F.found w.volume parent leaf = some entry) fun _ => False) :
      Disturbs w ctx FXP_RMDIR body
  | rename {body rest : List UInt8} {sourcePath targetPath sourceLeaf targetLeaf : Str} {sourceParent targetParent : List Str}
      {entry : F.Entry} {dest : F.Dir} {v : V}
      (hrequest : renameRequest body = some ((sourcePath, targetPath), rest))
      (hsource : resolve [] sourcePath = sourceParent ++ [sourceLeaf])
      (htarget : resolve [] targetPath = targetParent ++ [targetLeaf])
      (hbeside : below (resolve [] sourcePath) (resolve [] targetPath) = false)
      (hfound : F.found w.volume sourceParent sourceLeaf = some entry)
      (hdest : F.openDirPath targetParent w.volume = .ok dest w.volume)
      (hrename : F.rename entry dest targetLeaf w.volume = .ok () v)
      (h : w.server.Strands (F.Passes w.volume entry) fun _ => False) : Disturbs w ctx FXP_RENAME body
  | truncate {body rest : List UInt8} {path leaf : Str} {flags : Nat} {attrs : RequestedAttrs} {parent : List Str} {entry : F.Entry}
      (hrequest : openRequest body = some ((path, flags, attrs), rest)) (hvalid : validateAttrs attrs ctx.clock = .ok ())
      (hsplit : resolve [] path = parent ++ [leaf]) (hfound : F.found w.volume parent leaf = some entry)
      (hchanges : changesTarget flags (some entry) = true) (h : w.server.Cuts w.volume parent leaf entry 0) :
      Disturbs w ctx FXP_OPEN body
  | setstat {body rest : List UInt8} {path : Str} {attrs : RequestedAttrs}
      (hrequest : setstatRequest body = some ((path, attrs), rest)) (h : w.Shrinks (resolve [] path) attrs ctx) :
      Disturbs w ctx FXP_SETSTAT body
  | fsetstat {body rest token : List UInt8} {attrs : RequestedAttrs} {slot : Slot} {file : FileHandle F}
      (hrequest : fsetstatRequest body = some ((token, attrs), rest)) (hslot : w.server.slotOf token = .ok slot)
      (hfile : w.server.handles slot = some (.file file)) (hwritable : file.writable = true)
      (h : w.Shrinks (file.parent ++ [file.leaf]) attrs ctx) : Disturbs w ctx FXP_FSETSTAT body

section

variable {w w' : World F}

/-- Where nothing is stranded, the cursors are good that the change has spared, apart from those that are dropped next. -/
theorem TwinsBut.struck (h : Twins Good w w') {v : V} {struck : List Str → Str → Prop} {dropped : FileHandle F → Prop}
    (hspares : F.Spares Good w.volume v fun parent leaf => ¬struck parent leaf) (hresize : w.server.resize = none)
    (hcalm : ¬w.server.Strands struck dropped) : TwinsBut Good dropped { w with volume := v } { w' with volume := v } := by
  refine h.spared hspares hresize fun file hfile => ?_
  by_cases hdropped : dropped file
  · exact .inl hdropped
  by_cases hbare : file.Bare
  · exact .inr (.inl hbare)
  · exact .inr (.inr ⟨fun hstruck => hcalm ⟨file, hfile, hbare, hstruck, hdropped⟩, id⟩)

/-- REMOVE of a file that no handle has a cursor in. -/
theorem alike_remove (law : Cursors F Good) (h : Twins Good w w') (hresize : w.server.resize = none) (id : Nat) (body : List UInt8)
    (ctx : Ctx) (hcalm : ¬w.Disturbs ctx FXP_REMOVE body) : Alike (Twins Good) Eq (remove id body) (remove id body) w w' := by
  refine alike_parse h fun r hpath => alike_check h fun path hsplit => alike_findEntry law h (fun _ => h) fun entry hfound => ?_
  refine alike_guard h fun hfile => alike_guard h fun hwritable => ?_
  have hdelete := law.delete w.volume entry h.fresh.good ⟨_, _, hfound⟩
  refine alike_callOr h.volume (fun _ v hrun => ?_) fun e v hrun => h.spared_all (hdelete.error hrun)
  refine alike_reply (h.struck (hdelete.ok hrun) hresize fun hstrands => hcalm ?_) _
  exact .remove hpath (splitLast_eq hsplit) hfound (Bool.eq_false_of_not_eq_true hfile) (Bool.eq_false_of_not_eq_true hwritable)
    hrun hstrands

/-- RMDIR, which no file's cursors are below. -/
theorem alike_rmdir (law : Cursors F Good) (h : Twins Good w w') (hresize : w.server.resize = none) (id : Nat) (body : List UInt8)
    (ctx : Ctx) (hcalm : ¬w.Disturbs ctx FXP_RMDIR body) : Alike (Twins Good) Eq (rmdir id body) (rmdir id body) w w' := by
  refine alike_parse h fun r hpath => alike_check h fun path hsplit => alike_findEntry law h (fun _ => h) fun entry hfound => ?_
  refine alike_guard h fun hdirectory => ?_
  have hdelete := law.delete w.volume entry h.fresh.good ⟨_, _, hfound⟩
  refine alike_call h.volume (fun _ v hrun => ?_) fun e v hrun => ?_
  · refine alike_reply (h.struck (hdelete.ok hrun) hresize fun hstrands => hcalm ?_) _
    exact .rmdir hpath (splitLast_eq hsplit) hfound (by simpa using hdirectory) hrun hstrands
  · have h' := h.spared_all (hdelete.error hrun)
    cases e <;> exact alike_throw h'

/-- RENAME of what no handle has a cursor in. -/
theorem alike_rename (law : Cursors F Good) (h : Twins Good w w') (hresize : w.server.resize = none) (id : Nat) (body : List UInt8)
    (ctx : Ctx) (hcalm : ¬w.Disturbs ctx FXP_RENAME body) : Alike (Twins Good) Eq (rename id body) (rename id body) w w' := by
  refine alike_parse h fun r hrequest => alike_check h fun source hsource => alike_check h fun target htarget => ?_
  refine alike_guard h fun hbeside => alike_findEntry law h (fun _ => h) fun entry hfound =>
    alike_openDirEntry law h h fun dest hdest => ?_
  have hrename := law.rename w.volume entry dest target.1 h.fresh.good ⟨_, _, hfound⟩
  refine alike_call h.volume (fun _ v hrun => ?_) fun e v hrun => ?_
  · refine alike_reply (h.struck (hrename.ok hrun) hresize fun hstrands => hcalm ?_) _
    exact .rename hrequest (splitLast_eq hsource) (splitLast_eq htarget) (Bool.eq_false_of_not_eq_true hbeside) hfound hdest hrun
      hstrands
  · have h' := h.spared_all (hrename.error hrun)
    cases e <;> exact alike_throw h'

/-- The cursors of a path are dropped. -/
theorem TwinsBut.invalidateFile {parent : List Str} {leaf : Str}
    (h : TwinsBut Good (fun file => samePath file.parent file.leaf parent leaf = true) w w') :
    Twins Good { w with server := w.server.invalidateFile parent leaf }
      { w' with server := w'.server.invalidateFile parent leaf } := by
  refine h.update (f := (·.invalidateFile parent leaf)) ?_ (fun file hfile => .inr ?_) fun _ hjob => .inr hjob
  · unfold Server.invalidateFile Server.forget
    dsimp only
    congr 1
    funext slot
    cases hslot : w.server.handles slot with
    | none => rfl
    | some handle =>
      cases handle with
      | dir dir => rfl
      | file file =>
        show some (Handle.file (if samePath file.parent file.leaf parent leaf then file.forget.forget else file.forget)) =
          some (.file (if samePath file.parent file.leaf parent leaf then file.forget else file).forget)
        split <;> rfl
  · obtain ⟨slot, hslot⟩ := hfile
    unfold Server.invalidateFile at hslot
    dsimp only at hslot
    split at hslot
    · rename_i kept hkept
      split at hslot
      · injection hslot with hslot
        injection hslot with hslot
        exact .inl (hslot ▸ kept.bare_forget)
      · rename_i hother
        injection hslot with hslot
        injection hslot with hslot
        exact .inr ⟨⟨slot, hslot ▸ hkept⟩, hslot ▸ hother⟩
    · rename_i hneither
      exact absurd hslot (hneither file)

/-- A file is cut, and the cursors of its path are to be dropped. -/
theorem alike_truncate {β : Type} {P : β → β → Prop} (law : Cursors F Good) (h : Twins Good w w') (hresize : w.server.resize = none)
    {parent : List Str} {leaf : Str} {entry : F.Entry} (hfound : F.found w.volume parent leaf = some entry) {size : Nat}
    (hcalm : ¬w.server.Cuts w.volume parent leaf entry size) {status : Status} {f f' : Unit → SftpM F β}
    (hf : ∀ v, (F.found v parent leaf).isSome = true → TwinsBut Good (fun file => samePath file.parent file.leaf parent leaf = true)
      { w with volume := v } { w' with volume := v } →
        Alike (Twins Good) P (f ()) (f' ()) { w with volume := v } { w' with volume := v }) :
    Alike (Twins Good) P (callOr (F.truncate entry size) status >>= f) (callOr (F.truncate entry size) status >>= f') w w' := by
  have htruncate := law.truncate w.volume entry size h.fresh.good ⟨_, _, hfound⟩
  refine alike_callOr h.volume (fun _ v hrun => ?_) fun e v hrun => h.spared_all (htruncate.error hrun)
  obtain ⟨hspares, hstays⟩ := htruncate.ok hrun
  exact hf v (hstays parent leaf hfound) (h.struck hspares hresize fun hstrands => hcalm ⟨⟨v, hrun⟩, hstrands⟩)

/-- SETSTAT of a path's components, where it shortens no file that another handle has a cursor in. -/
theorem alike_applySetstat (law : Cursors F Good) (h : Twins Good w w') (hresize : w.server.resize = none) (id : Nat)
    (components : List Str) (attrs : RequestedAttrs) (ctx : Ctx) (hcalm : ¬w.Shrinks components attrs ctx) :
    Alike (Twins Good) Eq (applySetstat id components attrs ctx) (applySetstat id components attrs ctx) w w' := by
  refine alike_check h fun _ hvalid => alike_check h fun path hsplit => alike_findEntry law h (fun _ => h) fun entry hfound => ?_
  obtain ⟨leaf, parent⟩ := path
  -- what follows once the size is as asked for
  have hrest {w w' : World F} (hthere : (F.found w.volume parent leaf).isSome = true)
      (h : TwinsBut Good (fun file => samePath file.parent file.leaf parent leaf = true) w w') :
      Alike (Twins Good) Eq
        (do
          let entry ← findEntry parent leaf
          applyMetadata entry attrs ctx.clock
          update (·.invalidateFile parent leaf)
          ok id)
        (do
          let entry ← findEntry parent leaf
          applyMetadata entry attrs ctx.clock
          update (·.invalidateFile parent leaf)
          ok id) w w' := by
    refine alike_findEntry law h (fun hnone => absurd hnone (Option.isSome_iff_ne_none.mp hthere)) fun entry hentry => ?_
    refine alike_applyMetadata law h (Fat.Named.known ⟨_, _, hentry⟩) (fun v h => ?_) fun hinvalid => absurd hvalid hinvalid
    exact alike_bind (Q := Eq) ⟨rfl, h.invalidateFile⟩ fun _ _ _ _ _ h => alike_reply h _
  dsimp only
  refine alike_ite (fun _ => alike_throw h) fun hdirectory => alike_ite (fun _ => alike_throw h) fun hreadonly => ?_
  refine alike_ite (fun hgrow => ⟨rfl, ?_⟩) fun hgrow => ?_
  · exact TwinsBut.update h (f := fun s => { s with
      resize := some { id, components, attrs, file := resizeFile parent leaf entry.len } }) rfl
      (fun file hfile => .inr (.inr ⟨hfile, fun h => h⟩)) fun job hjob => .inl (Option.some.inj hjob ▸ ⟨splitLast_eq hsplit, rfl, rfl⟩)
  have hplain := hrest (hfound ▸ rfl) h.weaken
  unfold shrink
  cases hsize : attrs.size with
  | none => exact hplain
  | some size =>
    dsimp only
    split
    · rename_i hcut
      refine alike_truncate law h hresize hfound (fun hcuts => hcalm ?_) fun v hthere h => hrest hthere h
      refine ⟨parent, leaf, entry, size, splitLast_eq hsplit, hvalid, hfound, ?_, ?_, hsize, hcut, hcuts⟩
      · simpa [hsize] using hdirectory
      · simpa [hsize, Nat.ne_of_lt hcut] using hreadonly
    · exact hplain

/-- SETSTAT. -/
theorem alike_setstat (law : Cursors F Good) (h : Twins Good w w') (hresize : w.server.resize = none) (id : Nat)
    (body : List UInt8) (ctx : Ctx) (hcalm : ¬w.Disturbs ctx FXP_SETSTAT body) :
    Alike (Twins Good) Eq (setstat id body ctx) (setstat id body ctx) w w' :=
  alike_parse h fun _ hrequest => alike_applySetstat law h hresize _ _ _ _ fun hshrinks => hcalm (.setstat hrequest hshrinks)

/-- FSETSTAT. -/
theorem alike_fsetstat (law : Cursors F Good) (h : Twins Good w w') (hresize : w.server.resize = none) (id : Nat)
    (body : List UInt8) (ctx : Ctx) (hcalm : ¬w.Disturbs ctx FXP_FSETSTAT body) :
    Alike (Twins Good) Eq (fsetstat id body ctx) (fsetstat id body ctx) w w' := by
  refine alike_parse h fun r hrequest => alike_slotOf h h fun slot hslot => ?_
  obtain ⟨⟨token, attrs⟩, rest⟩ := r
  have hrest (hfile : attrs.size.isSome = true → ∃ file, w.server.handles slot = some (.file file) ∧ file.writable = true) :
      Alike (Twins Good) Eq
        (do
          let components ← check (← view (·.handleComponents slot))
          applySetstat id components attrs ctx)
        (do
          let components ← check (← view (·.handleComponents slot))
          applySetstat id components attrs ctx) w w' := by
    refine alike_components h fun components hcomponents => alike_applySetstat law h hresize _ _ _ _ fun hshrinks => hcalm ?_
    have hsize : attrs.size.isSome = true := by
      obtain ⟨_, _, _, size, _, _, _, _, _, hsize, _⟩ := hshrinks
      rw [hsize]
      rfl
    obtain ⟨file, hhandle, hwritable⟩ := hfile hsize
    unfold Server.handleComponents at hcomponents
    rw [hhandle] at hcomponents
    injection hcomponents with hcomponents
    subst hcomponents
    exact .fsetstat hrequest hslot hhandle hwritable hshrinks
  dsimp only
  unfold requireWritable
  split
  · simp only [bind_assoc]
    refine alike_fileAt h h fun file hhandle => ?_
    have hforget : file.forget.writable = file.writable := rfl
    rw [hforget]
    cases hwritable : file.writable with
    | false => exact alike_bind (alike_throw (Q := fun _ _ => False) h) fun _ _ _ _ h _ => h.elim
    | true => exact hrest fun _ => ⟨file, hhandle, hwritable⟩
  · rename_i hsize
    exact hrest fun h => absurd h hsize

/-- The target of an OPEN. -/
theorem alike_openTarget {β : Type} {P : β → β → Prop} (law : Cursors F Good) (h : Twins Good w w') (hresize : w.server.resize = none)
    {parent : List Str} {leaf : Str} {flags : Nat}
    (hcalm : ∀ entry, F.found w.volume parent leaf = some entry → changesTarget flags (some entry) = true →
      ¬w.server.Cuts w.volume parent leaf entry 0) {f f' : Nat × Bool → SftpM F β}
    (hf : ∀ r w₁ w₁', Twins Good w₁ w₁' → Alike (Twins Good) P (f r) (f' r) w₁ w₁') :
    Alike (Twins Good) P (openTarget parent leaf flags >>= f) (openTarget parent leaf flags >>= f') w w' := by
  refine alike_bind (Q := Eq) ?_ fun r r' _ _ hr h => hr ▸ hf r _ _ h
  unfold openTarget
  refine alike_openDirEntry law h h fun dir hdir => alike_search_or h (law.find dir leaf) h fun existing hrun => ?_
  have hfound : F.found w.volume parent leaf = existing := by
    have hfind : F.findIn parent leaf w.volume = .ok existing w.volume := (bind_of_ok hdir).trans hrun
    unfold Fat.found
    rw [hfind]
  cases existing with
  | none =>
    refine alike_ite (fun _ => ?_) fun _ => alike_throw h
    have hcreate := law.createFile w.volume dir leaf h.fresh.good
    refine alike_callOr h.volume (fun _ v hrun => ?_) fun e v hrun => h.spared_all (hcreate.error hrun)
    exact alike_pure rfl (h.spared_all (hcreate.ok hrun))
  | some entry =>
    refine alike_ite (fun _ => alike_throw h) fun hdirectory => alike_ite (fun _ => alike_throw h) fun hexists => ?_
    refine alike_ite (fun _ => alike_throw h) fun hreadonly => alike_ite (fun htruncates => ?_) fun _ => alike_pure rfl h
    refine alike_truncate law h hresize hfound (hcalm entry hfound ?_) fun v _ h => ?_
    · exact changesTarget_some (Bool.eq_false_of_not_eq_true hdirectory) (Bool.eq_false_of_not_eq_true hexists)
        (Bool.eq_false_of_not_eq_true hreadonly) htruncates
    · exact alike_bind (Q := Eq) ⟨rfl, h.invalidateFile⟩ fun _ _ _ _ _ h => alike_pure rfl h

/-- OPEN, where it truncates no such file. -/
theorem alike_openFile (law : Cursors F Good) (h : Twins Good w w') (hresize : w.server.resize = none) (id : Nat)
    (body : List UInt8) (ctx : Ctx) (hcalm : ¬w.Disturbs ctx FXP_OPEN body) :
    Alike (Twins Good) Eq (openFile id body ctx) (openFile id body ctx) w w' := by
  refine alike_parse h fun r hrequest => alike_check h fun _ hvalid => alike_check h fun path hsplit => ?_
  obtain ⟨leaf, parent⟩ := path
  refine alike_openTarget law h hresize ?_ fun r w₁ w₁' h => ?_
  · exact fun entry hfound hchanges hcuts => hcalm (.truncate hrequest hvalid (splitLast_eq hsplit) hfound hchanges hcuts)
  have hrest {w w' : World F} (h : Twins Good w w') (file : FileHandle F) (hbare : file.Bare) :
      Alike (Twins Good) Eq (do let slot ← allocate (.file file); handleReply id slot)
        (do let slot ← allocate (.file file); handleReply id slot) w w' :=
    alike_allocate h id fun _ heq => Handle.file.inj heq ▸ hbare
  unfold applyCreated
  dsimp only
  split
  · simp only [bind_assoc]
    refine alike_findEntry law h (fun _ => h) fun entry hfound => ?_
    refine alike_applyMetadata law h (Fat.Named.known ⟨_, _, hfound⟩) (fun v h => hrest h _ ⟨rfl, rfl⟩) fun _ _ h => h
  · exact hrest h _ ⟨rfl, rfl⟩

/-- A complete request. -/
theorem alike_handleRequest (law : Cursors F Good) (h : Twins Good w w') (hresize : w.server.resize = none) (kind id : Nat)
    (body : List UInt8) (ctx : Ctx) (hcalm : ¬w.Disturbs ctx kind body) :
    Alike (Twins Good) Eq (handleRequest kind id body ctx) (handleRequest kind id body ctx) w w' := by
  unfold handleRequest
  refine alike_ite (fun _ => alike_realpath h id body) fun _ => ?_
  refine alike_ite (fun _ => alike_statPath law h id body ctx) fun _ => ?_
  refine alike_ite (fun _ => alike_fstat law h id body ctx) fun _ => ?_
  refine alike_ite (fun _ => alike_opendir law h id body) fun _ => ?_
  refine alike_ite (fun _ => alike_readdir law h id body ctx) fun _ => ?_
  refine alike_ite (fun hkind => alike_openFile law h hresize id body ctx (hkind ▸ hcalm)) fun _ => ?_
  refine alike_ite (fun _ => alike_close h id body) fun _ => ?_
  refine alike_ite (fun _ => alike_readFile law h id body) fun _ => ?_
  refine alike_ite (fun hkind => alike_remove law h hresize id body ctx (hkind ▸ hcalm)) fun _ => ?_
  refine alike_ite (fun _ => alike_mkdir law h id body ctx) fun _ => ?_
  refine alike_ite (fun hkind => alike_rmdir law h hresize id body ctx (hkind ▸ hcalm)) fun _ => ?_
  refine alike_ite (fun hkind => alike_rename law h hresize id body ctx (hkind ▸ hcalm)) fun _ => ?_
  refine alike_ite (fun hkind => alike_setstat law h hresize id body ctx (hkind ▸ hcalm)) fun _ => ?_
  refine alike_ite (fun hkind => alike_fsetstat law h hresize id body ctx (hkind ▸ hcalm)) fun _ => ?_
  exact alike_ite (fun _ => alike_extended law h id body) fun _ => alike_throw h

/-- A complete packet. -/
theorem Twins.dispatch (law : Cursors F Good) (h : Twins Good w w') (hresize : w.server.resize = none) (kind : Nat)
    (body : List UInt8) (mounted : Bool) (ctx : Ctx)
    (hcalm : ∀ id rest, Reader.u32 body = some (id, rest) → mounted = true → ¬w.Disturbs ctx kind rest) :
    Twins Good (w.dispatch kind body mounted ctx) (w'.dispatch kind body mounted ctx) := by
  unfold World.dispatch
  split
  · exact h.emit _
  split
  · exact h.setFatal
  rename_i id rest hid
  unfold World.answer
  cases mounted with
  | false => exact h.emit _
  | true =>
    have halike := alike_handleRequest law h hresize kind id rest ctx (hcalm id rest hid rfl)
    simp only [if_true]
    unfold Alike at halike
    split at halike
    · rename_i hrun hrun'
      rw [hrun, hrun']
      exact halike.2
    · rename_i hrun hrun'
      rw [hrun, hrun', halike.1]
      exact halike.2.emit _
    · exact halike.elim

end

end Ratputer
