import Mathlib.Data.List.Basic
import Mathlib.Data.Nat.Digits.Lemmas
import Mathlib.Tactic.Ring

/-!
# Numbers as octets

`beNat` reads a list of octets as a big-endian number and `beBytes n v` writes `v` in `n` octets, most significant first,
dropping what does not fit. `leNat` and `leBytes` are the little-endian pair.
-/

namespace Octets

/-- The number a list of octets spells, most significant octet first. -/
def beNat (l : List UInt8) : ℕ := l.foldl (fun acc b => acc * 256 + b.toNat) 0

/-- `v` in `n` octets, most significant octet first. -/
def beBytes : ℕ → ℕ → List UInt8
  | 0, _ => []
  | n + 1, v => UInt8.ofNat (v / 256 ^ n) :: beBytes n v

/-- The number a list of octets spells, least significant octet first. -/
def leNat (l : List UInt8) : ℕ := beNat l.reverse

/-- `v` in `n` octets, least significant octet first. -/
def leBytes (n v : ℕ) : List UInt8 := (beBytes n v).reverse

@[simp] theorem length_beBytes (n v : ℕ) : (beBytes n v).length = n := by
  induction n with
  | zero => rfl
  | succ n ih => simp [beBytes, ih]

@[simp] theorem length_leBytes (n v : ℕ) : (leBytes n v).length = n := by simp [leBytes]

/-- The accumulator of the fold stands in front of the octets still to read. -/
theorem foldl_beNat (l : List UInt8) (acc : ℕ) :
    l.foldl (fun acc b => acc * 256 + b.toNat) acc = acc * 256 ^ l.length + beNat l := by
  induction l generalizing acc with
  | nil => simp [beNat]
  | cons b l ih =>
    rw [beNat, List.foldl_cons, List.foldl_cons, ih, ih, List.length_cons, pow_succ]
    ring

/-- The first octet counts `256` to the number of octets behind it. -/
theorem beNat_cons (b : UInt8) (l : List UInt8) : beNat (b :: l) = b.toNat * 256 ^ l.length + beNat l := by
  rw [beNat, List.foldl_cons, foldl_beNat]
  simp

@[simp] theorem beNat_nil : beNat [] = 0 := rfl

/-- The number of a list of octets is below `256` to its length. -/
theorem beNat_lt (l : List UInt8) : beNat l < 256 ^ l.length := by
  induction l with
  | nil => simp
  | cons b l ih =>
    rw [beNat_cons, List.length_cons, pow_succ]
    have hb := b.toNat_lt
    have : b.toNat * 256 ^ l.length ≤ 255 * 256 ^ l.length := Nat.mul_le_mul_right _ (by omega)
    omega

/-- Four octets spell a number below `2 ^ 32`. -/
theorem beNat_lt_of_length {l : List UInt8} {n : ℕ} (h : l.length ≤ n) : beNat l < 256 ^ n :=
  (beNat_lt l).trans_le (Nat.pow_le_pow_right (by decide) h)

/-- Writing reads back what fits in `n` octets. -/
theorem beNat_beBytes_mod (n v : ℕ) : beNat (beBytes n v) = v % 256 ^ n := by
  induction n with
  | zero => simp [beBytes, Nat.mod_one]
  | succ n ih =>
    have h256 : (2 : ℕ) ^ 8 = 256 := rfl
    rw [beBytes, beNat_cons, length_beBytes, ih, UInt8.toNat_ofNat', h256, Nat.mod_pow_succ, Nat.add_comm, Nat.mul_comm]

/-- Writing a number that fits and reading it back gives the number. -/
theorem beNat_beBytes {n v : ℕ} (h : v < 256 ^ n) : beNat (beBytes n v) = v := by
  rw [beNat_beBytes_mod, Nat.mod_eq_of_lt h]

/-- Multiples of what does not fit in `n` octets do not change the `n` octets. -/
theorem beBytes_mod_self (n v : ℕ) : beBytes n (v % 256 ^ n) = beBytes n v := by
  have key : ∀ m ≤ n, beBytes m (v % 256 ^ n) = beBytes m v := by
    intro m hm
    induction m with
    | zero => rfl
    | succ m ih =>
      have hp : 256 ^ n = 256 ^ m * 256 ^ (n - m) := by rw [← pow_add]; congr 1; omega
      have hd : (256 : ℕ) ∣ 256 ^ (n - m) := dvd_pow_self _ (by omega)
      have hb : UInt8.ofNat (v % 256 ^ n / 256 ^ m) = UInt8.ofNat (v / 256 ^ m) := by
        apply UInt8.toNat_inj.mp
        rw [UInt8.toNat_ofNat', UInt8.toNat_ofNat', hp, Nat.mod_mul_right_div_self]
        exact Nat.mod_mod_of_dvd _ hd
      rw [beBytes, beBytes, hb, ih (by omega)]
  exact key n le_rfl

/-- Reading octets and writing the number gives the octets. -/
theorem beBytes_beNat (l : List UInt8) : beBytes l.length (beNat l) = l := by
  induction l with
  | nil => rfl
  | cons b l ih =>
    have hlt := beNat_lt l
    have hpos : 0 < 256 ^ l.length := Nat.pow_pos (by decide)
    have hdiv : beNat (b :: l) / 256 ^ l.length = b.toNat := by
      rw [beNat_cons, Nat.add_comm, Nat.add_mul_div_right _ _ hpos, Nat.div_eq_of_lt hlt, Nat.zero_add]
    have hmod : beNat (b :: l) % 256 ^ l.length = beNat l := by
      rw [beNat_cons, Nat.add_comm, Nat.add_mul_mod_self_right, Nat.mod_eq_of_lt hlt]
    rw [List.length_cons, beBytes, hdiv, ← beBytes_mod_self, hmod, ih, UInt8.ofNat_toNat]

/-- The same, for a list whose length is known. -/
theorem beBytes_beNat_of_length {l : List UInt8} {n : ℕ} (h : l.length = n) : beBytes n (beNat l) = l := by
  subst h
  exact beBytes_beNat l

/-- A 64-bit number has twenty decimal digits at most. -/
theorem length_toDigits_le {n : ℕ} (h : n < 2 ^ 64) : (Nat.toDigits 10 n).length ≤ 20 :=
  (Nat.length_toDigits_le_iff (by decide) (by decide)).mpr (h.trans (by decide))

end Octets
