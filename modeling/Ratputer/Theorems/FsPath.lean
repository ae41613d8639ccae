import Ratputer.Lemmas.SftpListing

/-!
# Paths

Resolving a path applies its components one after the other, so a path resolved in two halves gives what it gives whole. The
components of a resolved path are plain names, and the text of a list of plain names is read back to the list: this makes the
answer of REALPATH a name for the object of the path asked about.
-/

namespace Ratputer

/-- A component that names an entry: not empty, not `.` or `..`, and without a slash. -/
structure Plain (component : Str) : Prop where
  ne_nil : component ≠ []
  ne_dot : component ≠ ['.']
  ne_dotdot : component ≠ ['.', '.']
  no_slash : '/' ∉ component

instance (component : Str) : Decidable (Plain component) :=
  decidable_of_iff (component ≠ [] ∧ component ≠ ['.'] ∧ component ≠ ['.', '.'] ∧ '/' ∉ component)
    ⟨fun ⟨h1, h2, h3, h4⟩ => ⟨h1, h2, h3, h4⟩, fun h => ⟨h.ne_nil, h.ne_dot, h.ne_dotdot, h.no_slash⟩⟩

namespace PathAux

/-! ## Splitting -/

theorem splitSlash_ne_nil (path : Str) : splitSlash path ≠ [] := by
  induction path with
  | nil => simp [splitSlash]
  | cons c rest ih =>
    rw [splitSlash]
    split
    · simp
    · split <;> simp

theorem splitSlash_cons_ne {c : Char} (hc : c ≠ '/') {rest part : Str} {parts : List Str} (h : splitSlash rest = part :: parts) :
    splitSlash (c :: rest) = (c :: part) :: parts := by
  rw [splitSlash, if_neg hc, h]

theorem splitSlash_cons_slash (rest : Str) : splitSlash ('/' :: rest) = [] :: splitSlash rest := by
  rw [splitSlash, if_pos rfl]

/-- A slash between two texts ends the parts of the first. -/
theorem splitSlash_append (p q : Str) : splitSlash (p ++ '/' :: q) = splitSlash p ++ splitSlash q := by
  induction p with
  | nil => exact splitSlash_cons_slash q
  | cons c p ih =>
    by_cases hc : c = '/'
    · subst hc
      rw [List.cons_append, splitSlash_cons_slash, splitSlash_cons_slash, ih, List.cons_append]
    · obtain ⟨part, parts, hparts⟩ := List.exists_cons_of_ne_nil (splitSlash_ne_nil p)
      rw [hparts, List.cons_append] at ih
      rw [List.cons_append, splitSlash_cons_ne hc ih, splitSlash_cons_ne hc hparts, List.cons_append]

/-- No part has a slash. -/
theorem no_slash_of_mem_split {path part : Str} (h : part ∈ splitSlash path) : '/' ∉ part := by
  induction path generalizing part with
  | nil =>
    obtain rfl := List.mem_singleton.mp h
    exact List.not_mem_nil
  | cons c rest ih =>
    by_cases hc : c = '/'
    · subst hc
      rw [splitSlash_cons_slash] at h
      rcases List.mem_cons.mp h with rfl | h
      · exact List.not_mem_nil
      · exact ih h
    · obtain ⟨first, parts, hparts⟩ := List.exists_cons_of_ne_nil (splitSlash_ne_nil rest)
      rw [splitSlash_cons_ne hc hparts] at h
      rcases List.mem_cons.mp h with rfl | h
      · have hfirst := @ih first (by rw [hparts]; exact List.mem_cons_self)
        exact fun hmem => (List.mem_cons.mp hmem).elim (fun he => hc he.symm) hfirst
      · exact ih (by rw [hparts]; exact List.mem_cons_of_mem _ h)

/-- A text without a slash is one part. -/
theorem splitSlash_of_no_slash {part : Str} (h : '/' ∉ part) : splitSlash part = [part] := by
  induction part with
  | nil => rfl
  | cons c rest ih =>
    have hc : c ≠ '/' := fun he => h (he ▸ List.mem_cons_self)
    rw [splitSlash_cons_ne hc (ih fun hmem => h (List.mem_cons_of_mem _ hmem))]

/-- The parts of the text of components are the components, behind an empty part for the first slash. -/
theorem splitSlash_flatMap {components : List Str} (h : ∀ c ∈ components, '/' ∉ c) (head : Str) (hhead : '/' ∉ head) :
    splitSlash (head ++ components.flatMap ('/' :: ·)) = head :: components := by
  induction components generalizing head with
  | nil =>
    rw [List.flatMap_nil, List.append_nil]
    exact splitSlash_of_no_slash hhead
  | cons c components ih =>
    rw [List.flatMap_cons, List.cons_append, splitSlash_append, splitSlash_of_no_slash hhead,
      ih (fun d hd => h d (List.mem_cons_of_mem _ hd)) c (h c List.mem_cons_self)]
    rfl

/-! ## Applying components -/

/-- A component without a slash keeps a list of plain names one. -/
theorem plain_resolveComponent {result : List Str} {component : Str} (h : ∀ c ∈ result, Plain c) (hslash : '/' ∉ component) :
    ∀ c ∈ resolveComponent result component, Plain c := by
  intro c hc
  unfold resolveComponent at hc
  split_ifs at hc with hskip hup
  · exact h c hc
  · exact h c (List.mem_of_mem_dropLast hc)
  · rcases List.mem_append.mp hc with hc | hc
    · exact h c hc
    · obtain rfl := List.mem_singleton.mp hc
      exact ⟨fun he => hskip (.inl he), fun he => hskip (.inr he), hup, hslash⟩

theorem plain_foldl {parts : List Str} (hparts : ∀ c ∈ parts, '/' ∉ c) {result : List Str} (h : ∀ c ∈ result, Plain c) :
    ∀ c ∈ parts.foldl resolveComponent result, Plain c := by
  induction parts generalizing result with
  | nil => exact h
  | cons part parts ih =>
    exact ih (fun c hc => hparts c (List.mem_cons_of_mem _ hc)) (plain_resolveComponent h (hparts part List.mem_cons_self))

/-- Plain names go down one after the other. -/
theorem foldl_plain {components : List Str} (h : ∀ c ∈ components, Plain c) (result : List Str) :
    components.foldl resolveComponent result = result ++ components := by
  induction components generalizing result with
  | nil => rw [List.foldl_nil, List.append_nil]
  | cons c components ih =>
    have hc := h c List.mem_cons_self
    rw [List.foldl_cons, ih (fun d hd => h d (List.mem_cons_of_mem _ hd)), resolveComponent,
      if_neg (not_or_intro hc.ne_nil hc.ne_dot), if_neg hc.ne_dotdot, List.append_assoc]
    rfl

/-- A path resolved from a list of plain names is one. -/
theorem resolve_plain {base : List Str} (h : ∀ c ∈ base, Plain c) (path : Str) : ∀ c ∈ resolve base path, Plain c := by
  refine plain_foldl (fun c hc => no_slash_of_mem_split hc) ?_
  split_ifs
  · exact fun c hc => absurd hc List.not_mem_nil
  · exact h

/-- The text of plain names resolves to the names, wherever it is resolved from. -/
theorem resolve_display {components : List Str} (h : ∀ c ∈ components, Plain c) (base : List Str) :
    resolve base (display components) = components := by
  by_cases hnil : components = []
  · subst hnil
    rfl
  · obtain ⟨first, rest, rfl⟩ := List.exists_cons_of_ne_nil hnil
    have hsplit := splitSlash_flatMap (fun c hc => (h c hc).no_slash) [] List.not_mem_nil
    rw [List.nil_append] at hsplit
    have hhead : ((first :: rest).flatMap ('/' :: ·)).head? = some '/' := rfl
    rw [display, if_neg hnil, resolve, if_pos hhead, hsplit, List.foldl_cons]
    exact foldl_plain h []

/-- Two halves of a path resolve one after the other. -/
theorem resolve_append {p q : Str} (hp : p ≠ []) (hq : q.head? ≠ some '/') (base : List Str) :
    resolve base (p ++ '/' :: q) = resolve (resolve base p) q := by
  obtain ⟨c, rest, rfl⟩ := List.exists_cons_of_ne_nil hp
  have hhead : ((c :: rest) ++ '/' :: q).head? = (c :: rest).head? := rfl
  unfold resolve
  rw [splitSlash_append, List.foldl_append, hhead, if_neg hq]

/-! ## The characters of a path -/

theorem mem_of_mem_split {path part : Str} {c : Char} (hpart : part ∈ splitSlash path) (hc : c ∈ part) : c ∈ path := by
  induction path generalizing part with
  | nil =>
    obtain rfl := List.mem_singleton.mp hpart
    exact absurd hc List.not_mem_nil
  | cons d rest ih =>
    by_cases hd : d = '/'
    · subst hd
      rw [splitSlash_cons_slash] at hpart
      rcases List.mem_cons.mp hpart with rfl | hpart
      · exact absurd hc List.not_mem_nil
      · exact List.mem_cons_of_mem _ (ih hpart hc)
    · obtain ⟨first, parts, hparts⟩ := List.exists_cons_of_ne_nil (splitSlash_ne_nil rest)
      rw [splitSlash_cons_ne hd hparts] at hpart
      rcases List.mem_cons.mp hpart with rfl | hpart
      · rcases List.mem_cons.mp hc with rfl | hc
        · exact List.mem_cons_self
        · exact List.mem_cons_of_mem _ (@ih first (by rw [hparts]; exact List.mem_cons_self) hc)
      · exact List.mem_cons_of_mem _ (ih (by rw [hparts]; exact List.mem_cons_of_mem _ hpart) hc)

/-- The text of a resolved path has a character other than a slash only from the path. -/
theorem mem_display_resolve {path : Str} {c : Char} (hc : c ∈ display (resolve [] path)) : c = '/' ∨ c ∈ path := by
  have hfold (parts : List Str) : ∀ result : List Str, ∀ part ∈ parts.foldl resolveComponent result,
      part ∈ result ∨ part ∈ parts := by
    induction parts with
    | nil => exact fun result part h => .inl h
    | cons first parts ih =>
      intro result part h
      rcases ih _ part h with h | h
      · unfold resolveComponent at h
        split_ifs at h
        · exact .inl h
        · exact .inl (List.mem_of_mem_dropLast h)
        · rcases List.mem_append.mp h with h | h
          · exact .inl h
          · exact .inr (List.mem_singleton.mp h ▸ List.mem_cons_self)
      · exact .inr (List.mem_cons_of_mem _ h)
  unfold display at hc
  split_ifs at hc
  · exact .inl (List.mem_singleton.mp hc)
  · obtain ⟨part, hpart, hmem⟩ := List.mem_flatMap.mp hc
    rcases List.mem_cons.mp hmem with rfl | hmem
    · exact .inl rfl
    · unfold resolve at hpart
      rw [ite_self] at hpart
      rcases hfold _ _ part hpart with h | h
      · exact absurd h List.not_mem_nil
      · exact .inr (mem_of_mem_split h hmem)

/-- A path that is read has no NUL. -/
theorem no_nul_of_reader_path {body rest : List UInt8} {path : Str} (h : Reader.path body = some (path, rest)) : '\x00' ∉ path := by
  obtain ⟨bytes, rest', -, hret⟩ := reader_bind h
  cases htext : Utf8.decode bytes with
  | none => rw [htext] at hret; nomatch hret
  | some text =>
    rw [htext] at hret
    dsimp only at hret
    by_cases hnul : '\x00' ∈ text
    · rw [if_pos hnul] at hret
      nomatch hret
    · rw [if_neg hnul] at hret
      injection hret with hret
      injection hret with h1 h2
      exact h1 ▸ hnul

/-- A path without NUL is read back. -/
theorem reader_path_put {path : Str} (hnul : '\x00' ∉ path) (hlen : (asBytes path).length < 2 ^ 32) (rest : List UInt8) :
    Reader.path (putString (asBytes path) ++ rest) = some (path, rest) := by
  refine (Reader.bind_ok (Reader.string_put hlen rest)).trans ?_
  simp only [asBytes, Utf8.decode_encode]
  rw [if_neg hnul]
  rfl

/-- The answer of REALPATH is a path of a request. -/
theorem reader_path_canonical {body rest : List UInt8} {path : Str} (h : Reader.path body = some (path, rest))
    (hbody : body.length < 2 ^ 32) (rest' : List UInt8) :
    Reader.path (putString (asBytes (display (resolve [] path))) ++ rest') = some (display (resolve [] path), rest') := by
  have hlen := reader_path h
  have hle := length_canonical path
  refine reader_path_put (fun hmem => ?_) (by omega) rest'
  rcases mem_display_resolve hmem with hslash | hmem
  · exact absurd hslash (by decide)
  · exact no_nul_of_reader_path h hmem

end PathAux

open PathAux in
/-- Resolving from plain names gives plain names; their text resolves to them again from anywhere; a path in two halves resolves
one half after the other. A request for the answer of REALPATH in place of the path it answered does the same: REALPATH of it
gives the same answer, and STAT looks at the same object. -/
theorem resolve_canonical {base : List Str} (hbase : ∀ c ∈ base, Plain c) :
    (∀ path, ∀ c ∈ resolve base path, Plain c) ∧
    (∀ path base', resolve base' (display (resolve base path)) = resolve base path) ∧
    (∀ p q, p ≠ [] → q.head? ≠ some '/' → resolve base (p ++ '/' :: q) = resolve (resolve base p) q) ∧
    (∀ (V : Type) (F : Fat V) (body rest : List UInt8) path, Reader.path body = some (path, rest) → body.length < 2 ^ 32 →
      ∀ id rest' ctx,
        realpath (F := F) id (putString (asBytes (display (resolve [] path))) ++ rest') = realpath id body ∧
        statPath (F := F) id (putString (asBytes (display (resolve [] path))) ++ rest') ctx =
          statPath id body ctx) := by
  have hroot (path : Str) (base' : List Str) : resolve base' (display (resolve [] path)) = resolve [] path :=
    resolve_display (resolve_plain (fun c hc => absurd hc List.not_mem_nil) path) base'
  refine ⟨resolve_plain hbase, fun path => resolve_display (resolve_plain hbase path), ?_, ?_⟩
  · exact fun p q hp hq => resolve_append hp hq base
  · intro V F body rest path hpath hlen id rest' ctx
    have hcanonical := reader_path_canonical hpath hlen rest'
    constructor
    · simp only [realpath, parse, hpath, hcanonical, pure_bind, hroot]
    · simp only [statPath, parse, hpath, hcanonical, pure_bind, hroot]

/-- Up from the parent, past an empty part and down again. -/
theorem resolve_canonical_music :
    resolve ["music".toList] "../docs//./a".toList = ["docs".toList, "a".toList] ∧
      resolve [] (display (resolve ["music".toList] "../docs//./a".toList)) = ["docs".toList, "a".toList] ∧
      resolve ["music".toList] ("..".toList ++ '/' :: "docs".toList) =
        resolve (resolve ["music".toList] "..".toList) "docs".toList := by
  have h : ∀ c ∈ ["music".toList], Plain c := by decide
  have hvalue : resolve ["music".toList] "../docs//./a".toList = ["docs".toList, "a".toList] := by decide
  exact ⟨hvalue, ((resolve_canonical h).2.1 _ []).trans hvalue, (resolve_canonical h).2.2.1 _ _ (by decide) (by decide)⟩

end Ratputer
