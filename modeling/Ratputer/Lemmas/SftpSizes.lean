import Ratputer.Sftp.Session
import Mathlib.Tactic.IntervalCases

/-!
# Sizes of what the server repeats

A request's path comes back at most one byte longer, and a directory entry takes a bounded part of a READDIR reply.
-/

namespace Ratputer

open Octets

@[simp] theorem length_putU32 (n : Nat) : (putU32 n).length = 4 := length_beBytes 4 n

@[simp] theorem length_putU64 (n : Nat) : (putU64 n).length = 8 := length_beBytes 8 n

@[simp] theorem length_putString (bytes : List UInt8) : (putString bytes).length = bytes.length + 4 := by
  rw [putString, List.length_append, length_putU32, Nat.add_comm]

@[simp] theorem length_packet (kind : Nat) (body : List UInt8) : (packet kind body).length = body.length + 5 := by
  rw [packet, List.length_append, List.length_cons, length_putU32]
  omega

/-- The length field of a packet counts the bytes that follow it. -/
theorem u32At_packet (kind : Nat) (body : List UInt8) (h : body.length + 1 < 2 ^ 32) :
    u32At (packet kind body) 0 = body.length + 1 := by
  rw [u32At, List.drop_zero, packet, List.take_left' (length_putU32 _)]
  exact beNat_beBytes h

/-- The id of a reply. -/
theorem id_of_packet (kind : Nat) {id : Nat} (h : id < 2 ^ 32) (body : List UInt8) :
    u32At (packet kind (putU32 id ++ body)) 5 = id := by
  have hdrop : (packet kind (putU32 id ++ body)).drop 5 = putU32 id ++ body := by
    rw [packet, ← List.singleton_append, ← List.append_assoc]
    exact List.drop_left' (by simp)
  rw [u32At, hdrop, List.take_left' (length_putU32 _)]
  exact beNat_beBytes h

/-- The type of a packet is the byte behind its length. -/
theorem kindOf_packet {kind : Nat} (h : kind < 256) (body : List UInt8) : kindOf (packet kind body) = kind := by
  have hdrop : (packet kind body).drop 4 = UInt8.ofNat kind :: body := by
    rw [packet]
    exact List.drop_left' (length_putU32 _)
  rw [kindOf, hdrop, List.headD_cons, UInt8.toNat_ofNat', Nat.mod_eq_of_lt h]

/-- The code of a status reply. -/
theorem code_of_status (id : Nat) (status : Status) (h : status.code < 2 ^ 32) :
    u32At (statusPacket id status) 9 = status.code := by
  have hdrop : (statusPacket id status).drop 9 =
      putU32 status.code ++ (putString (messageBytes status.message) ++ putString []) := by
    rw [statusPacket, packet, ← List.singleton_append, ← List.append_assoc, List.append_assoc (putU32 id),
      List.append_assoc (putU32 id), ← List.append_assoc (putU32 _ ++ [_]), List.append_assoc (putU32 status.code)]
    exact List.drop_left' (by simp)
  rw [u32At, hdrop, List.take_left' (length_putU32 _)]
  exact beNat_beBytes h

/-- Attributes take 24 bytes at most. -/
theorem length_encode_attrs (attrs : Attrs) : attrs.encode.length ≤ 24 := by
  unfold Attrs.encode
  cases attrs.mtime <;> simp

/-! ## Paths -/

/-- The bytes of a path's components, with a slash each. -/
def pathCost (components : List Str) : Nat := (components.map fun c => (asBytes c).length + 1).sum

/-- The bytes of a path's components and of as many slashes add up. -/
theorem pathCost_append (a b : List Str) : pathCost (a ++ b) = pathCost a + pathCost b := by
  simp [pathCost]

/-- A string is as long as its characters. -/
theorem length_asBytes_cons (c : Char) (s : Str) :
    (asBytes (c :: s)).length = (asBytes [c]).length + (asBytes s).length := by
  simp [asBytes]

/-- A path is split without loss. -/
theorem pathCost_splitSlash (path : Str) : pathCost (splitSlash path) = (asBytes path).length + 1 := by
  have hslash : (asBytes ['/']).length = 1 := by decide
  fun_induction splitSlash path with
  | case1 => rfl
  | case2 rest ih =>
    rw [length_asBytes_cons, hslash]
    simp only [pathCost, List.map_cons, List.sum_cons] at ih ⊢
    rw [ih, show (asBytes []).length = 0 from rfl]
    omega
  | case3 c rest hc hnil ih =>
    rw [hnil] at ih
    simp [pathCost] at ih
  | case4 c rest hc part parts hparts ih =>
    rw [hparts] at ih
    rw [length_asBytes_cons]
    simp only [pathCost, List.map_cons, List.sum_cons] at ih ⊢
    rw [length_asBytes_cons]
    omega

/-- A component makes a path longer by itself at most. -/
theorem pathCost_resolveComponent (result : List Str) (component : Str) :
    pathCost (resolveComponent result component) ≤ pathCost result + pathCost [component] := by
  unfold resolveComponent
  split
  · exact Nat.le_add_right _ _
  split
  · have hdrop : pathCost result.dropLast ≤ pathCost result := by
      rcases List.eq_nil_or_concat result with rfl | ⟨init, last, rfl⟩
      · exact le_refl _
      · rw [List.concat_eq_append, List.dropLast_concat, pathCost_append]
        exact Nat.le_add_right _ _
    exact le_trans hdrop (Nat.le_add_right _ _)
  · rw [pathCost_append]

/-- A resolved path is no longer than its parts. -/
theorem pathCost_foldl (components result : List Str) :
    pathCost (components.foldl resolveComponent result) ≤ pathCost result + pathCost components := by
  induction components generalizing result with
  | nil => exact Nat.le_add_right _ _
  | cons component rest ih =>
    have hstep := pathCost_resolveComponent result component
    have hcons : pathCost (component :: rest) = pathCost [component] + pathCost rest := pathCost_append [component] rest
    have hrest := ih (resolveComponent result component)
    rw [List.foldl_cons]
    omega

/-- A path is displayed with one slash a component. -/
theorem length_display (components : List Str) :
    (asBytes (display components)).length ≤ max 1 (pathCost components) := by
  have hslash : (asBytes ['/']).length = 1 := by decide
  have hflat : (asBytes (components.flatMap ('/' :: ·))).length = pathCost components := by
    induction components with
    | nil => rfl
    | cons component rest ih =>
      have hcons : pathCost (component :: rest) = pathCost [component] + pathCost rest := pathCost_append [component] rest
      rw [List.flatMap_cons, asBytes, Utf8.encode_append, List.length_append, hcons, ← ih]
      have hone := length_asBytes_cons '/' component
      simp only [asBytes, pathCost, List.map_cons, List.map_nil, List.sum_cons, List.sum_nil] at hone hslash ⊢
      omega
  unfold display
  split
  · rw [hslash]
    exact le_max_left _ _
  · rw [hflat]
    exact le_max_right _ _

/-- The canonical form of a path is at most one byte longer. -/
theorem length_canonical (path : Str) : (asBytes (display (resolve [] path))).length ≤ (asBytes path).length + 1 := by
  have hdisplay := length_display (resolve [] path)
  have hfold := pathCost_foldl (splitSlash path) (if path.head? = some '/' then [] else [])
  have hnil : pathCost (if path.head? = some '/' then [] else []) = 0 := by split <;> rfl
  rw [pathCost_splitSlash, hnil] at hfold
  have hres : pathCost (resolve [] path) ≤ (asBytes path).length + 1 := by
    have : resolve [] path = (splitSlash path).foldl resolveComponent (if path.head? = some '/' then [] else []) := rfl
    rw [this]
    omega
  omega

/-! ## Strings of a request -/

/-- A field that is read is taken off the body. -/
theorem reader_take {count : Nat} {body bytes rest : List UInt8} (h : Reader.take count body = some (bytes, rest)) :
    bytes.length = count ∧ bytes.length + rest.length = body.length := by
  unfold Reader.take at h
  split at h
  · nomatch h
  · injection h with h
    injection h with h1 h2
    rw [← h1, ← h2, List.length_take, List.length_drop]
    omega

/-- A reader of two parts reads them one after the other. -/
theorem reader_bind {α β : Type} {m : ReaderM α} {f : α → ReaderM β} {body : List UInt8} {r : β × List UInt8}
    (h : (m >>= f) body = some r) : ∃ a rest, m body = some (a, rest) ∧ f a rest = some r := by
  obtain ⟨⟨a, rest⟩, hm, hf⟩ := Option.bind_eq_some_iff.mp h
  exact ⟨a, rest, hm, hf⟩

/-- A number that is read takes four bytes. -/
theorem reader_u32 {body rest : List UInt8} {n : Nat} (h : Reader.u32 body = some (n, rest)) :
    n < 2 ^ 32 ∧ 4 + rest.length = body.length := by
  obtain ⟨bytes, rest', htake, hret⟩ := reader_bind h
  obtain ⟨h1, h2⟩ := reader_take htake
  injection hret with hret
  injection hret with hn hrest
  subst hn hrest
  exact ⟨beNat_lt_of_length (n := 4) (le_of_eq h1), by omega⟩

/-- A number is there when four bytes are. -/
theorem reader_u32_eq {body : List UInt8} (h : 4 ≤ body.length) : Reader.u32 body = some (u32At body 0, body.drop 4) := by
  show (Reader.take 4 >>= _) body = _
  simp [Reader.take, Nat.not_lt.mpr h, bind, StateT.bind, u32At]
  rfl

/-- A string that is read takes its length as well. -/
theorem reader_string {body bytes rest : List UInt8} (h : Reader.string body = some (bytes, rest)) :
    4 + bytes.length + rest.length = body.length := by
  obtain ⟨count, rest', hcount, htake⟩ := reader_bind h
  have h1 := (reader_u32 hcount).2
  have h2 := (reader_take htake).2
  omega

/-- A string is as many bytes as the number before it says. -/
theorem reader_string_eq {body bytes rest : List UInt8} (h : Reader.string body = some (bytes, rest)) :
    bytes = (body.drop 4).take (u32At body 0) ∧ 4 + u32At body 0 ≤ body.length := by
  obtain ⟨count, rest', hcount, htake⟩ := reader_bind h
  have hlen := (reader_u32 hcount).2
  rw [reader_u32_eq (by omega)] at hcount
  injection hcount with hcount
  injection hcount with h1 h2
  subst h1 h2
  have hle := reader_take htake
  unfold Reader.take at htake
  split at htake
  · nomatch htake
  · injection htake with htake
    injection htake with h1 h2
    simp only [List.length_drop] at hlen hle
    exact ⟨h1.symm, by omega⟩

/-- The path of a request takes four bytes less than the body it is read from. -/
theorem reader_path {body rest : List UInt8} {path : Str} (h : Reader.path body = some (path, rest)) :
    4 + (asBytes path).length + rest.length = body.length := by
  obtain ⟨bytes, rest', hbytes, hret⟩ := reader_bind h
  have hlen := reader_string hbytes
  cases htext : Utf8.decode bytes with
  | none => rw [htext] at hret; nomatch hret
  | some text =>
    rw [htext] at hret
    dsimp only at hret
    by_cases hnul : '\x00' ∈ text
    · rw [if_pos hnul] at hret
      nomatch hret
    · rw [if_neg hnul] at hret
      injection hret with hret
      injection hret with h1 h2
      subst h1 h2
      rw [asBytes, Utf8.encode_of_decode _ _ htext]
      exact hlen

/-! ## Directory entries -/

/-- A number that fits is padded to the width. -/
theorem length_padLeft {width n : Nat} (fill : Char) (hw : 0 < width) (h : n < 10 ^ width) :
    (padLeft width fill n).length = width := by
  have hdigits : (Nat.toDigits 10 n).length ≤ width := (Nat.length_toDigits_le_iff (by decide) hw).mpr h
  rw [padLeft, List.length_append, List.length_replicate]
  omega

/-- The names of the months have three letters. -/
theorem length_month_name (i : Nat) : ((MONTHS[min i 11]?).getD "").toList.length ≤ 3 := by
  have hi : min i 11 ≤ 11 := Nat.min_le_right _ _
  generalize min i 11 = k at hi
  interval_cases k <;> decide

/-- A long listing line is at most 48 characters and the name. -/
theorem longListingLine_eq {Identity : Type} (entry : FileEntry Identity) (now : Str) :
    ∃ head, longListingLine entry now = head ++ entry.name ∧ head.length ≤ 48 := by
  unfold longListingLine unpackDate unpackTime
  dsimp only
  refine ⟨_, rfl, ?_⟩
  have hyear : (entry.modified.date >>> 9 &&& 0x7f) + 1980 < 10 ^ 5 := by
    have := Nat.and_le_right (n := entry.modified.date >>> 9) (m := 0x7f)
    omega
  have hday : entry.modified.date &&& 0x1f < 10 ^ 2 := by
    have := Nat.and_le_right (n := entry.modified.date) (m := 0x1f)
    omega
  have hhour : entry.modified.time >>> 11 &&& 0x1f < 10 ^ 2 := by
    have := Nat.and_le_right (n := entry.modified.time >>> 11) (m := 0x1f)
    omega
  have hminute : entry.modified.time >>> 5 &&& 0x3f < 10 ^ 2 := by
    have := Nat.and_le_right (n := entry.modified.time >>> 5) (m := 0x3f)
    omega
  have hsize : entry.len < 10 ^ 13 := lt_trans entry.len_lt (by decide)
  have hmonth := length_month_name ((entry.modified.date >>> 5 &&& 0x0f) - 1)
  have hmoment (same : Bool) : (if same then
      padLeft 2 '0' (entry.modified.time >>> 11 &&& 0x1f) ++ [':'] ++ padLeft 2 '0' (entry.modified.time >>> 5 &&& 0x3f)
      else padLeft 5 ' ' ((entry.modified.date >>> 9 &&& 0x7f) + 1980)).length = 5 := by
    cases same with
    | true => simp [length_padLeft _ (by decide) hhour, length_padLeft _ (by decide) hminute]
    | false => simp [length_padLeft _ (by decide) hyear]
  have hpermissions (b c : Bool) : (if b then (if c then "dr-xr-xr-x" else "drwxr-xr-x")
      else if c then "-r--r--r--" else "-rw-r--r--").toList.length = 10 := by
    cases b <;> cases c <;> decide
  have hp := hpermissions entry.isDirectory entry.readOnly
  have hm := hmoment (decide (now.take 4 = padLeft 4 '0' ((entry.modified.date >>> 9 &&& 0x7f) + 1980)))
  have hrat : " 1 rat rat ".toList.length = 11 := by decide
  simp only [decide_eq_true_eq] at hm
  simp only [List.length_append, length_padLeft _ (by decide : 0 < 13) hsize, length_padLeft _ (by decide : 0 < 2) hday,
    hm, hrat, List.length_cons, List.length_nil]
  omega

/-- A long listing line in bytes. -/
theorem length_longListingLine {Identity : Type} (entry : FileEntry Identity) (now : Str) :
    (asBytes (longListingLine entry now)).length ≤ 957 := by
  obtain ⟨head, hline, hhead⟩ := longListingLine_eq entry now
  have hbytes := Utf8.length_encode_le head
  have hname := entry.name_le
  rw [hline, asBytes, Utf8.encode_append, List.length_append]
  rw [asBytes] at hname
  omega

/-- One entry of a READDIR reply. -/
theorem length_readdir_entry {V : Type} {F : Fat V} (entry : F.Entry) (ctx : Ctx) :
    (putString (asBytes entry.name) ++ putString (asBytes (longListingLine entry ctx.now)) ++
      (Attrs.of entry ctx.clock).encode).length ≤ 1754 := by
  have hname := entry.name_le
  have hline := length_longListingLine entry ctx.now
  have hattrs := length_encode_attrs (Attrs.of entry ctx.clock)
  simp only [List.length_append, length_putString]
  omega

/-- The entries of a READDIR reply overshoot its byte budget by one at most. -/
theorem length_readdirEntries {V : Type} {F : Fat V} (ctx : Ctx) (records : List (Except FatError F.Entry)) (skip : Nat)
    (entries : List UInt8) (count : Nat) {result : List UInt8 × Nat}
    (h : readdirEntries ctx records skip entries count = .ok result) (hle : entries.length ≤ READDIR_MAX_BYTES + 1754) :
    result.1.length ≤ READDIR_MAX_BYTES + 1754 := by
  fun_induction readdirEntries ctx records skip entries count with
  | case1 => injection h with h; rw [← h]; exact hle
  | case2 => nomatch h
  | case3 _ _ _ _ _ _ ih => exact ih h hle
  | case4 _ _ _ _ _ _ _ ih => exact ih h hle
  | case5 => injection h with h; rw [← h]; exact hle
  | case6 entry rest skip entries count _ _ hbudget ih =>
    refine ih h ?_
    have hentry := length_readdir_entry entry ctx
    rw [List.append_assoc, List.append_assoc, List.length_append]
    rw [List.append_assoc] at hentry
    omega

end Ratputer
