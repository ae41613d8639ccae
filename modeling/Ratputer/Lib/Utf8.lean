import Mathlib.Data.List.Basic

/-!
# UTF-8 as lists of octets

`encode` is the UTF-8 form of a list of characters. `decode` reads it back and refuses every other octet string: an octet
sequence is accepted only when it is the encoding of the character it spells, which rules out overlong forms, surrogates and
numbers past the last code point.
-/

namespace Utf8

/-- The octets of a list of characters. -/
def encode (cs : List Char) : List UInt8 := cs.flatMap String.utf8EncodeChar

/-- The characters of a well-formed octet string, one to four octets each. -/
def decode : List UInt8 → Option (List Char)
  | [] => some []
  | a :: l =>
    let c1 := Char.ofNat a.toNat
    if String.utf8EncodeChar c1 = [a] then (decode l).map (c1 :: ·)
    else
      match l with
      | [] => none
      | b :: l =>
        let c2 := Char.ofNat (a.toNat % 32 * 64 + b.toNat % 64)
        if String.utf8EncodeChar c2 = [a, b] then (decode l).map (c2 :: ·)
        else
          match l with
          | [] => none
          | c :: l =>
            let c3 := Char.ofNat ((a.toNat % 16 * 64 + b.toNat % 64) * 64 + c.toNat % 64)
            if String.utf8EncodeChar c3 = [a, b, c] then (decode l).map (c3 :: ·)
            else
              match l with
              | [] => none
              | d :: l =>
                let c4 := Char.ofNat (((a.toNat % 8 * 64 + b.toNat % 64) * 64 + c.toNat % 64) * 64 + d.toNat % 64)
                if String.utf8EncodeChar c4 = [a, b, c, d] then (decode l).map (c4 :: ·) else none

@[simp] theorem encode_nil : encode [] = [] := rfl

@[simp] theorem encode_cons (c : Char) (cs : List Char) : encode (c :: cs) = String.utf8EncodeChar c ++ encode cs := rfl

theorem encode_append (cs cs' : List Char) : encode (cs ++ cs') = encode cs ++ encode cs' := List.flatMap_append

theorem length_encode_cons (c : Char) (cs : List Char) : (encode (c :: cs)).length = c.utf8Size + (encode cs).length := by
  rw [encode_cons, List.length_append, String.length_utf8EncodeChar]

/-- A character has at least one octet. -/
theorem length_le_length_encode (cs : List Char) : cs.length ≤ (encode cs).length := by
  induction cs with
  | nil => exact Nat.le_refl _
  | cons c cs ih =>
    have := c.utf8Size_pos
    rw [length_encode_cons, List.length_cons]
    omega

/-- A character takes at most four octets. -/
theorem length_encode_le (cs : List Char) : (encode cs).length ≤ 4 * cs.length := by
  induction cs with
  | nil => simp
  | cons c cs ih =>
    rw [encode_cons, List.length_append, String.length_utf8EncodeChar, List.length_cons]
    have := c.utf8Size_le_four
    omega

/-- An ASCII character is one octet. -/
theorem encodeChar_ascii {c : Char} (h : c.toNat < 128) : String.utf8EncodeChar c = [UInt8.ofNat c.toNat] := by
  have hle : c.val.toNat ≤ 0x7f := Nat.le_of_lt_succ h
  unfold String.utf8EncodeChar
  dsimp only
  rw [if_pos hle]
  rfl

theorem encode_ascii {cs : List Char} (h : ∀ c ∈ cs, c.toNat < 128) : encode cs = cs.map fun c => UInt8.ofNat c.toNat := by
  induction cs with
  | nil => rfl
  | cons c cs ih =>
    rw [encode_cons, encodeChar_ascii (h c List.mem_cons_self), ih fun d hd => h d (List.mem_cons_of_mem _ hd)]
    rfl

/-- What is decoded was the encoding of the result. -/
theorem encode_of_decode (l : List UInt8) : ∀ cs, decode l = some cs → encode cs = l := by
  fun_induction decode l with
  | case1 => simp
  | case2 | case4 | case6 | case8 =>
    rename_i h ih
    intro cs hcs
    obtain ⟨rest, hr, rfl⟩ := Option.map_eq_some_iff.mp hcs
    rw [encode_cons, h, ih rest hr]
    rfl
  | case3 | case5 | case7 | case9 => exact fun _ h => absurd h (by simp)

/-- No encoding of a character starts that of another. -/
theorem encodeChar_append_inj {c c' : Char} {l l' : List UInt8}
    (h : String.utf8EncodeChar c ++ l = String.utf8EncodeChar c' ++ l') : c = c' ∧ l = l' := by
  have hc : c = c' := by
    have hbytes := congrArg List.toByteArray h
    rw [List.toByteArray_append, List.toByteArray_append] at hbytes
    have hdec := ByteArray.utf8DecodeChar?_utf8EncodeChar_append (b := l.toByteArray) (c := c)
    rw [hbytes, ByteArray.utf8DecodeChar?_utf8EncodeChar_append] at hdec
    exact (Option.some.inj hdec).symm
  subst hc
  exact ⟨rfl, List.append_cancel_left h⟩

/-- A character that is read is the first one of what was encoded. -/
theorem decode_step {c c' : Char} {bytes l l' : List UInt8} (hc : String.utf8EncodeChar c = bytes)
    (h : bytes ++ l = String.utf8EncodeChar c' ++ l') :
    (decode l).map (c :: ·) = (decode l').map (c' :: ·) := by
  obtain ⟨rfl, rfl⟩ := encodeChar_append_inj (hc ▸ h)
  rfl

/-- A decoder reads an encoded character and goes on behind it. -/
theorem decode_encodeChar_append (c : Char) (l : List UInt8) :
    decode (String.utf8EncodeChar c ++ l) = (decode l).map (c :: ·) := by
  obtain ⟨v, hv⟩ : ∃ v, c.val.toNat = v := ⟨_, rfl⟩
  have hmax : v < 0x110000 := by
    have hvalid : c.val.toNat < 0xd800 ∨ (0xdfff < c.val.toNat ∧ c.val.toNat < 0x110000) := c.valid
    omega
  have hback (n : Nat) (hn : n = v) : Char.ofNat n = c := by
    rw [hn, ← hv]
    exact Char.ofNat_toNat c
  obtain ⟨bytes, hbytes⟩ : ∃ bytes, String.utf8EncodeChar c = bytes := ⟨_, rfl⟩
  have hcases := hbytes
  unfold String.utf8EncodeChar at hcases
  simp only [hv] at hcases
  -- Shorter sequences are refused, or were those of the character; the one of its length spells it.
  split_ifs at hcases with h1 h2 h3
  · subst hcases
    rw [hbytes, List.singleton_append, decode.eq_def]
    dsimp only
    rw [hback _ (by simp; omega), if_pos hbytes]
  · subst hcases
    rw [hbytes, List.cons_append, List.singleton_append, decode.eq_def]
    dsimp only
    split_ifs with g1 g2
    · exact decode_step g1 (by rw [hbytes]; rfl)
    · exact decode_step g2 (by rw [hbytes])
    · refine absurd ?_ g2
      rw [hback _ (by simp; omega), hbytes]
  · subst hcases
    rw [hbytes, List.cons_append, List.cons_append, List.singleton_append, decode.eq_def]
    dsimp only
    split_ifs with g1 g2 g3
    · exact decode_step g1 (by rw [hbytes]; rfl)
    · exact decode_step g2 (by rw [hbytes]; rfl)
    · exact decode_step g3 (by rw [hbytes])
    · refine absurd ?_ g3
      rw [hback _ (by simp; omega), hbytes]
  · subst hcases
    rw [hbytes, List.cons_append, List.cons_append, List.cons_append, List.singleton_append, decode.eq_def]
    dsimp only
    split_ifs with g1 g2 g3 g4
    · exact decode_step g1 (by rw [hbytes]; rfl)
    · exact decode_step g2 (by rw [hbytes]; rfl)
    · exact decode_step g3 (by rw [hbytes]; rfl)
    · exact decode_step g4 (by rw [hbytes])
    · refine absurd ?_ g4
      rw [hback _ (by simp; omega), hbytes]

/-- What was encoded is decoded again. -/
theorem decode_encode (cs : List Char) : decode (encode cs) = some cs := by
  induction cs with
  | nil => rfl
  | cons c cs ih => rw [encode_cons, decode_encodeChar_append, ih, Option.map_some]

example : decode [0x61, 0x2F, 0xC3, 0xA9] = some ['a', '/', 'é'] := by decide

example : decode [0xC0, 0xAF] = none := by decide

end Utf8
