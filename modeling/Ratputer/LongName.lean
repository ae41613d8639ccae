import Ratputer.FsPath
import Ratputer.Lib.Chunks
import Mathlib.Data.List.TakeWhile

/-!
# Long names on the volume

A name that does not fit a short one is stored in records of 13 UTF-16 units each, the last one padded with `0x0000` and then
`0xFFFF`. The reader takes both for padding wherever they stand in a record, and `validateFileName` lets U+FFFF through: such a
name can be created, and cannot be read back.
-/

namespace Ratputer

open Chunks

/-- Code units stored in one record. -/
def CHARS_PER_ENTRY : Nat := 13

def LFN_MAX_UTF16_UNITS : Nat := 255

/-- The UTF-16 code units of a character. -/
def utf16Units (c : Char) : List Nat :=
  if c.toNat < 0x10000 then [c.toNat] else [0xD800 + (c.toNat - 0x10000) / 0x400, 0xDC00 + (c.toNat - 0x10000) % 0x400]

def encodeUtf16 (name : Str) : List Nat := name.flatMap utf16Units

/-- The names that the driver creates. -/
def validateFileName (name : Str) : Bool :=
  name ≠ [] && name ≠ ['.'] && name ≠ ['.', '.'] && (encodeUtf16 name).length ≤ LFN_MAX_UTF16_UNITS &&
    name.all fun c => 0x1f < c.toNat && !List.contains ['"', '*', '/', ':', '<', '>', '?', '\\', '|'] c

/-- What fills the last record of a name of so many units. -/
def lfnPadding (length : Nat) : List Nat :=
  if length % CHARS_PER_ENTRY = 0 then [] else 0x0000 :: List.replicate (CHARS_PER_ENTRY - length % CHARS_PER_ENTRY - 1) 0xFFFF

/-- The records of a name, as they stand on the disk: the last part of the name comes first. -/
def buildLfnEntries (units : List Nat) : List (List Nat) := (chunks CHARS_PER_ENTRY (units ++ lfnPadding units.length)).reverse

/-- A unit that the reader takes for a character. -/
def isCharacter (unit : Nat) : Bool := unit ≠ 0x0000 && unit ≠ 0xFFFF

/-- A record is put before what was read of the name, up to its first unit that looks like padding. -/
def prependLfnEntry (name entry : List Nat) : List Nat := entry.takeWhile isCharacter ++ name

def readLfnEntries (entries : List (List Nat)) : List Nat := entries.foldl prependLfnEntry []

/-- The name that is read is the name that was created. -/
def readsBack (name : Str) : Bool := readLfnEntries (buildLfnEntries (encodeUtf16 name)) = encodeUtf16 name

namespace LongNameAux

/-- The parts of a name that are read, in the order of the name. -/
theorem read_build (units : List Nat) : readLfnEntries (buildLfnEntries units) =
    (chunks CHARS_PER_ENTRY (units ++ lfnPadding units.length)).flatMap (List.takeWhile isCharacter) := by
  unfold readLfnEntries buildLfnEntries
  rw [List.foldl_reverse]
  generalize chunks CHARS_PER_ENTRY (units ++ lfnPadding units.length) = entries
  induction entries with
  | nil => rfl
  | cons entry entries ih =>
    rw [List.foldr_cons, ih, List.flatMap_cons]
    rfl

/-- Where no unit looks like padding, all of the name is read. -/
theorem readAll (units : List Nat) : (∀ unit ∈ units, isCharacter unit = true) →
    (chunks CHARS_PER_ENTRY (units ++ lfnPadding units.length)).flatMap (List.takeWhile isCharacter) = units := by
  have hpos : 0 < CHARS_PER_ENTRY := by decide
  have hthirteen : CHARS_PER_ENTRY = 13 := rfl
  refine Chunks.induction hpos (P := fun units => (∀ unit ∈ units, isCharacter unit = true) →
    (chunks CHARS_PER_ENTRY (units ++ lfnPadding units.length)).flatMap (List.takeWhile isCharacter) = units) (fun _ => rfl)
    (fun units hne ih hall => ?_) units
  rw [chunks_of_ne_nil hpos (by simp [hne]), List.flatMap_cons]
  rcases Nat.lt_or_ge units.length CHARS_PER_ENTRY with hlt | hle
  · -- The last record: the name, and then its padding.
    have hlength : 0 < units.length := List.length_pos_iff.mpr hne
    have hmod : units.length % CHARS_PER_ENTRY = units.length := Nat.mod_eq_of_lt hlt
    have hpadding : lfnPadding units.length = 0x0000 :: List.replicate (CHARS_PER_ENTRY - units.length - 1) 0xFFFF := by
      rw [lfnPadding, hmod, if_neg (by omega)]
    have hwhole : (units ++ lfnPadding units.length).length = CHARS_PER_ENTRY := by
      rw [hpadding, List.length_append, List.length_cons, List.length_replicate]
      omega
    rw [List.take_of_length_le hwhole.le, List.drop_of_length_le hwhole.le, chunks_nil, List.flatMap_nil, List.append_nil, hpadding,
      List.takeWhile_append_of_pos hall, List.takeWhile_cons_of_neg (by decide), List.append_nil]
  · have hpadding : lfnPadding (units.drop CHARS_PER_ENTRY).length = lfnPadding units.length := by
      rw [lfnPadding, lfnPadding, List.length_drop, ← Nat.mod_eq_sub_mod hle]
    rw [List.take_append_of_le_length hle, List.drop_append_of_le_length hle, ← hpadding,
      ih fun unit hunit => hall unit (List.mem_of_mem_drop hunit),
      List.takeWhile_eq_self_iff.mpr fun unit hunit => hall unit (List.mem_of_mem_take hunit), List.take_append_drop]

/-- The units of a character that look like padding: that of U+0000 and that of U+FFFF. -/
theorem isCharacter_iff (c : Char) :
    (∀ unit ∈ utf16Units c, isCharacter unit = true) ↔ c ≠ Char.ofNat 0 ∧ c ≠ Char.ofNat 0xFFFF := by
  have hzero : c = Char.ofNat 0 ↔ c.toNat = 0 := ⟨fun h => by rw [h]; rfl, fun h => Char.toNat_inj.mp h⟩
  have hlast : c = Char.ofNat 0xFFFF ↔ c.toNat = 0xFFFF := ⟨fun h => by rw [h]; rfl, fun h => Char.toNat_inj.mp h⟩
  rw [ne_eq, ne_eq, hzero, hlast]
  have hlt : c.toNat < 0x110000 := c.valid.elim (fun h => lt_trans h (by decide)) (·.2)
  unfold utf16Units isCharacter
  split
  · simp
  · simp only [List.mem_cons, List.not_mem_nil, or_false, forall_eq_or_imp, forall_eq, Bool.and_eq_true, decide_eq_true_eq]
    omega

end LongNameAux

open LongNameAux

/-- The units that are read are those of the name exactly when none of them looks like padding. -/
theorem read_build_eq_iff (units : List Nat) :
    readLfnEntries (buildLfnEntries units) = units ↔ ∀ unit ∈ units, isCharacter unit = true := by
  rw [read_build]
  refine ⟨fun h unit hunit => ?_, readAll units⟩
  rw [← h] at hunit
  obtain ⟨entry, _, hentry⟩ := List.mem_flatMap.mp hunit
  exact List.mem_takeWhile_imp hentry

/-- What follows U+FFFF in a record is lost. -/
example : readLfnEntries (buildLfnEntries [0x61, 0xFFFF, 0x62]) = [0x61] := by decide

/-- Of the names that the driver creates, those with U+FFFF are not read back. -/
theorem readsBack_iff {name : Str} (hname : validateFileName name = true) :
    readsBack name = true ↔ Char.ofNat 0xFFFF ∉ name := by
  have hcontrol : ∀ c ∈ name, c ≠ Char.ofNat 0 := by
    rintro c hc rfl
    unfold validateFileName at hname
    simp only [Bool.and_eq_true, List.all_eq_true, decide_eq_true_eq] at hname
    exact absurd (hname.2 _ hc).1 (by decide)
  rw [readsBack, decide_eq_true_eq, read_build_eq_iff]
  constructor
  · exact fun h hmem => ((isCharacter_iff _).mp fun unit hunit => h unit (List.mem_flatMap.mpr ⟨_, hmem, hunit⟩)).2 rfl
  · intro h unit hunit
    obtain ⟨c, hc, hunit⟩ := List.mem_flatMap.mp hunit
    exact (isCharacter_iff c).mpr ⟨hcontrol c hc, fun heq => h (heq ▸ hc)⟩ unit hunit

end Ratputer
