import Ratputer.Lemmas.SftpSizes

/-!
# Directory listings

A NAME reply is read back as the names it lists, and a READDIR reply lists the visible entries behind the position of its handle,
as far as its budgets go.
-/

namespace Ratputer

open Octets

variable {V : Type} {F : Fat V}

/-! ## Reading a reply -/

namespace Reader

theorem bind_ok {α β : Type} {m : ReaderM α} {f : α → ReaderM β} {body rest : List UInt8} {a : α} (h : m body = some (a, rest)) :
    (m >>= f) body = f a rest := by
  show (m body).bind _ = _
  rw [h]
  rfl

theorem map_ok {α β : Type} {m : ReaderM α} {f : α → β} {body rest : List UInt8} {a : α} (h : m body = some (a, rest)) :
    (f <$> m) body = some (f a, rest) := by
  show (m body).bind _ = _
  rw [h]
  rfl

theorem take_append {count : Nat} {bytes : List UInt8} (h : bytes.length = count) (rest : List UInt8) :
    Reader.take count (bytes ++ rest) = some (bytes, rest) := by
  unfold take
  rw [if_neg (by rw [List.length_append]; omega), List.take_left' h, List.drop_left' h]

theorem octet (b : UInt8) (rest : List UInt8) : Reader.take 1 (b :: rest) = some ([b], rest) :=
  @take_append 1 [b] rfl rest

theorem u32_put {n : Nat} (h : n < 2 ^ 32) (rest : List UInt8) : Reader.u32 (putU32 n ++ rest) = some (n, rest) := by
  refine (bind_ok (take_append (length_beBytes 4 n) rest)).trans ?_
  rw [beNat_beBytes (n := 4) h]
  rfl

theorem u64_put {n : Nat} (h : n < 2 ^ 64) (rest : List UInt8) : Reader.u64 (putU64 n ++ rest) = some (n, rest) := by
  refine (bind_ok (take_append (length_beBytes 8 n) rest)).trans ?_
  rw [beNat_beBytes (n := 8) h]
  rfl

theorem string_put {bytes : List UInt8} (h : bytes.length < 2 ^ 32) (rest : List UInt8) :
    Reader.string (putString bytes ++ rest) = some (bytes, rest) := by
  rw [putString, List.append_assoc]
  exact (bind_ok (u32_put h _)).trans (take_append rfl rest)

end Reader

/-- The flags of an entry's attributes. -/
def ENTRY_FLAGS : Nat := ATTR_SIZE ||| ATTR_PERMISSIONS ||| ATTR_ACMODTIME

/-- An attribute block with the flags of an entry has a size, permissions and two times. -/
theorem reader_attrs_entry {size permissions atime mtime : Nat} (hsize : size < 2 ^ 64) (hperm : permissions < 2 ^ 32)
    (hatime : atime < 2 ^ 32) (hmtime : mtime < 2 ^ 32) (rest : List UInt8) :
    Reader.attrs (putU32 ENTRY_FLAGS ++ (putU64 size ++ (putU32 permissions ++ (putU32 atime ++ (putU32 mtime ++ rest))))) =
      some ({ size := some size, permissions := some permissions, times := some (atime, mtime) }, rest) := by
  have hunknown : hasFlag ENTRY_FLAGS Reader.ATTR_UNKNOWN = false := by decide
  have howner : hasFlag ENTRY_FLAGS ATTR_UIDGID = false := by decide
  have hextended : hasFlag ENTRY_FLAGS ATTR_EXTENDED = false := by decide
  have hsize' : hasFlag ENTRY_FLAGS ATTR_SIZE = true := by decide
  have hperm' : hasFlag ENTRY_FLAGS ATTR_PERMISSIONS = true := by decide
  have htimes' : hasFlag ENTRY_FLAGS ATTR_ACMODTIME = true := by decide
  unfold Reader.attrs
  refine (Reader.bind_ok (Reader.u32_put (by decide) _)).trans ?_
  simp only [hunknown, howner, hextended, hsize', hperm', htimes', Bool.false_eq_true, if_false, if_true]
  refine (Reader.bind_ok (Reader.map_ok (Reader.u64_put hsize _))).trans ?_
  refine (Reader.bind_ok rfl).trans ?_
  refine (Reader.bind_ok (Reader.map_ok (Reader.u32_put hperm _))).trans ?_
  refine (Reader.bind_ok (Reader.u32_put hatime _)).trans ?_
  refine (Reader.bind_ok (Reader.u32_put hmtime _)).trans ?_
  rfl

/-- The attributes of an entry are read back whole. -/
theorem reader_attrs_encode {Identity : Type} (entry : FileEntry Identity) (clock : ClockConfig) (rest : List UInt8) :
    ∃ attrs, Reader.attrs ((Attrs.of entry clock).encode ++ rest) = some (attrs, rest) := by
  have hclamp (t : Int) : Attrs.clampU32 t < 2 ^ 32 := (Nat.min_le_right _ _).trans_lt (by decide)
  have hsize : (Attrs.of entry clock).size < 2 ^ 64 := by
    unfold Attrs.of
    dsimp only
    split
    · decide
    · exact entry.len_lt.trans (by decide)
  have hperm : (Attrs.of entry clock).permissions < 2 ^ 32 := by
    unfold Attrs.of
    dsimp only
    split <;> split <;> decide
  obtain ⟨mtime, hmtime, hm⟩ : ∃ t, (Attrs.of entry clock).mtime = some t ∧ t < 2 ^ 32 := ⟨_, rfl, hclamp _⟩
  obtain ⟨atime, hatime, ha⟩ : ∃ t, (Attrs.of entry clock).atime = some t ∧ t < 2 ^ 32 := ⟨_, rfl, hclamp _⟩
  have hread := reader_attrs_entry hsize hperm ha hm rest
  refine ⟨_, Eq.trans ?_ hread⟩
  simp only [Attrs.encode, hmtime, hatime, Option.isSome_some, if_true, Option.getD_some, List.append_assoc]
  rfl

/-- The names of `count` entries of a NAME reply. -/
def readNames : Nat → ReaderM (List (List UInt8))
  | 0 => return []
  | count + 1 => do
    let name ← Reader.string
    let _ ← Reader.string
    let _ ← Reader.attrs
    return name :: (← readNames count)

/-- The names that a NAME reply lists. -/
def nameReply : ReaderM (List (List UInt8)) := do
  let _ ← Reader.u32
  let kind ← Reader.take 1
  if kind ≠ [UInt8.ofNat FXP_NAME] then failure
  let _ ← Reader.u32
  readNames (← Reader.u32)

/-- The names that a reply lists, if it is a NAME reply. -/
def listedNames (reply : List UInt8) : Option (List (List UInt8)) := (nameReply reply).map Prod.fst

/-! ## The reply of a batch -/

/-- An entry of a NAME reply. -/
def nameEntry (ctx : Ctx) (entry : F.Entry) : List UInt8 :=
  putString (asBytes entry.name) ++ putString (asBytes (longListingLine entry ctx.now)) ++
    (Attrs.of entry ctx.clock).encode

/-- The entries of a NAME reply are read back as their names. -/
theorem readNames_entries (ctx : Ctx) (batch : List F.Entry) (rest : List UInt8) :
    readNames batch.length (batch.flatMap (nameEntry ctx) ++ rest) = some (batch.map (asBytes ·.name), rest) := by
  induction batch with
  | nil => rfl
  | cons entry batch ih =>
    have hname : (asBytes entry.name).length < 2 ^ 32 := entry.name_le.trans_lt (by decide)
    have hline : (asBytes (longListingLine entry ctx.now)).length < 2 ^ 32 :=
      (length_longListingLine entry ctx.now).trans_lt (by decide)
    obtain ⟨attrs, hattrs⟩ := reader_attrs_encode entry ctx.clock (batch.flatMap (nameEntry ctx) ++ rest)
    simp only [List.flatMap_cons, nameEntry, List.append_assoc, List.length_cons, readNames]
    refine (Reader.bind_ok (Reader.string_put hname _)).trans ?_
    refine (Reader.bind_ok (Reader.string_put hline _)).trans ?_
    refine (Reader.bind_ok hattrs).trans ?_
    exact (Reader.bind_ok ih).trans rfl

/-- A NAME reply lists the names of its entries. -/
theorem listedNames_packet {id : Nat} (ctx : Ctx) {batch : List F.Entry} (h : batch.length < 2 ^ 32) :
    listedNames (packet FXP_NAME (putU32 id ++ putU32 batch.length ++ batch.flatMap (nameEntry ctx))) =
      some (batch.map (asBytes ·.name)) := by
  have hread : nameReply (packet FXP_NAME (putU32 id ++ putU32 batch.length ++ batch.flatMap (nameEntry ctx))) =
      some (batch.map (asBytes ·.name), []) := by
    unfold nameReply packet
    rw [List.append_assoc (putU32 id)]
    refine (Reader.bind_ok ((Reader.bind_ok (Reader.take_append (length_putU32 _) _)).trans rfl)).trans ?_
    refine (Reader.bind_ok (Reader.octet _ _)).trans ?_
    simp only [ne_eq, not_true_eq_false, if_false]
    refine (Reader.bind_ok ((Reader.bind_ok (Reader.take_append (length_putU32 _) _)).trans rfl)).trans ?_
    refine (Reader.bind_ok (Reader.u32_put h _)).trans ?_
    have hnames := readNames_entries ctx batch []
    rwa [List.append_nil] at hnames
  rw [listedNames, hread]
  rfl

/-- A status reply lists nothing. -/
theorem listedNames_status (id : Nat) (status : Status) : listedNames (statusPacket id status) = none := by
  have hread : nameReply (statusPacket id status) = none := by
    unfold nameReply statusPacket packet
    refine (Reader.bind_ok ((Reader.bind_ok (Reader.take_append (length_putU32 _) _)).trans rfl)).trans ?_
    refine (Reader.bind_ok (Reader.octet _ _)).trans ?_
    rw [if_pos (by decide)]
    rfl
  rw [listedNames, hread]
  rfl

/-! ## The walk over the directory -/

/-- The entries that a walk comes by, apart from the directory itself and its parent, until a record cannot be read. -/
def visible : List (Except FatError F.Entry) → List F.Entry
  | [] => []
  | .error _ :: _ => []
  | .ok entry :: rest => if entry.name = ['.'] ∨ entry.name = ['.', '.'] then visible rest else entry :: visible rest

/-- Every record was read. -/
def Readable (records : List (Except FatError F.Entry)) : Prop := ∀ record ∈ records, ∃ entry, record = .ok entry

/-- A walk adds to its reply the visible entries behind those it skips, all of them unless the budget is used up. -/
theorem readdirEntries_ok {ctx : Ctx} {records : List (Except FatError F.Entry)} {skip : Nat} {entries : List UInt8}
    {count : Nat} {result : List UInt8 × Nat} (h : readdirEntries ctx records skip entries count = .ok result) :
    ∃ batch : List F.Entry, result = (entries ++ batch.flatMap (nameEntry ctx), count + batch.length) ∧
      batch <+: (visible records).drop skip ∧
      (result.2 < READDIR_MAX_ENTRIES → result.1.length < READDIR_MAX_BYTES →
        Readable records ∧ batch = (visible records).drop skip) := by
  fun_induction readdirEntries ctx records skip entries count with
  | case1 skip entries count =>
    injection h with h
    refine ⟨[], by simp [← h], List.nil_prefix, fun _ _ => ⟨fun _ hmem => absurd hmem List.not_mem_nil, ?_⟩⟩
    rw [visible, List.drop_nil]
  | case2 => cases h
  | case3 entry rest skip entries count hdot ih =>
    obtain ⟨batch, hresult, hstart, hall⟩ := ih h
    rw [visible, if_pos hdot]
    refine ⟨batch, hresult, hstart, fun h1 h2 => ⟨?_, (hall h1 h2).2⟩⟩
    exact List.forall_mem_cons.mpr ⟨⟨entry, rfl⟩, (hall h1 h2).1⟩
  | case4 entry rest skip entries count hdot hskip ih =>
    obtain ⟨batch, hresult, hstart, hall⟩ := ih h
    obtain ⟨before, rfl⟩ : ∃ n, skip = n + 1 := ⟨skip - 1, by omega⟩
    rw [visible, if_neg hdot, List.drop_succ_cons]
    refine ⟨batch, hresult, hstart, fun h1 h2 => ⟨?_, (hall h1 h2).2⟩⟩
    exact List.forall_mem_cons.mpr ⟨⟨entry, rfl⟩, (hall h1 h2).1⟩
  | case5 entry rest skip entries count hdot hskip hbudget =>
    injection h with h
    refine ⟨[], by simp [← h], List.nil_prefix, fun h1 h2 => ?_⟩
    rw [← h] at h1 h2
    exact (hbudget.elim h1.not_ge h2.not_ge).elim
  | case6 entry rest skip entries count hdot hskip hbudget ih =>
    obtain ⟨batch, hresult, hstart, hall⟩ := ih h
    obtain rfl : skip = 0 := by omega
    rw [visible, if_neg hdot]
    rw [List.drop_zero] at hstart hall ⊢
    refine ⟨entry :: batch, ?_, List.cons_prefix_cons.mpr ⟨rfl, hstart⟩, fun h1 h2 => ⟨?_, ?_⟩⟩
    · rw [hresult, List.flatMap_cons, List.length_cons, nameEntry]
      simp only [List.append_assoc, Prod.mk.injEq, true_and]
      omega
    · exact List.forall_mem_cons.mpr ⟨⟨entry, rfl⟩, (hall h1 h2).1⟩
    · rw [(hall h1 h2).2]

/-- A batch has at most 24 entries. -/
theorem count_readdirEntries {ctx : Ctx} {records : List (Except FatError F.Entry)} {skip : Nat} {entries : List UInt8}
    {count : Nat} {result : List UInt8 × Nat} (h : readdirEntries ctx records skip entries count = .ok result)
    (hle : count ≤ READDIR_MAX_ENTRIES) : result.2 ≤ READDIR_MAX_ENTRIES := by
  fun_induction readdirEntries ctx records skip entries count with
  | case1 => injection h with h; rw [← h]; exact hle
  | case2 => cases h
  | case3 _ _ _ _ _ _ ih => exact ih h hle
  | case4 _ _ _ _ _ _ _ ih => exact ih h hle
  | case5 => injection h with h; rw [← h]; exact hle
  | case6 _ _ _ _ _ _ _ hbudget ih => exact ih h (by omega)

/-- A walk fails where a record cannot be read. -/
theorem readdirEntries_error {ctx : Ctx} {records : List (Except FatError F.Entry)} {skip : Nat} {entries : List UInt8}
    {count : Nat} {status : Status} (h : readdirEntries ctx records skip entries count = .error status) :
    status = .failure "Directory read error" ∧ ¬ Readable records := by
  have hlater (entry : F.Entry) (rest : List (Except FatError F.Entry)) (hrest : ¬ Readable rest) :
      ¬ Readable (.ok entry :: rest) := fun hread => hrest fun record hmem => hread record (List.mem_cons_of_mem _ hmem)
  fun_induction readdirEntries ctx records skip entries count with
  | case1 => cases h
  | case2 e rest skip entries count =>
    injection h with h
    refine ⟨h.symm, fun hread => ?_⟩
    obtain ⟨entry, hentry⟩ := hread _ (List.mem_cons_self ..)
    cases hentry
  | case3 entry rest skip entries count hdot ih => exact (ih h).imp_right (hlater entry rest)
  | case4 entry rest skip entries count hdot hskip ih => exact (ih h).imp_right (hlater entry rest)
  | case5 => cases h
  | case6 entry rest skip entries count hdot hskip hbudget ih => exact (ih h).imp_right (hlater entry rest)

end Ratputer
