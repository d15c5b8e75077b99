import SourceScout.Text.Utf8

/-!
# Text that is encoded and read again

The bytes of a character are read back as that character, whatever follows them: the lead byte says
how many bytes there are, and each of the others lies in the bounds that the lead byte sets.
-/

namespace SourceScout.Utf8

theorem toNat_toUInt8 {k : Nat} (h : k < 256) : k.toUInt8.toNat = k := by
  simpa using Nat.mod_eq_of_lt h

theorem begin?_two : ∀ k < 0x20, 2 ≤ k →
    begin? (0xc0 + k).toUInt8 = some ⟨k, 1, 0x80, 0xbf, (0xc0 + k).toUInt8, 1⟩ := by
  decide

theorem begin?_three : ∀ k < 0x10,
    begin? (0xe0 + k).toUInt8 = some ⟨k, 2, if k = 0 then 0xa0 else 0x80,
      if k = 0xd then 0x9f else 0xbf, (0xe0 + k).toUInt8, 1⟩ := by
  decide

theorem begin?_four : ∀ k < 5,
    begin? (0xf0 + k).toUInt8 = some ⟨k, 3, if k = 0 then 0x90 else 0x80,
      if k = 4 then 0x8f else 0xbf, (0xf0 + k).toUInt8, 1⟩ := by
  decide

section

variable {offset k m value missing length : Nat} {lower upper lead : UInt8} {bs : List UInt8}

theorem readFrom_lead {p : Partial} (hk : 0x80 ≤ k) (hlt : k < 0x100)
    (h : begin? k.toUInt8 = some p) :
    readFrom offset none (k.toUInt8 :: bs) = readFrom (offset + 1) (some p) bs := by
  have hhigh : ¬k.toUInt8 < 0x80 := by
    rw [UInt8.lt_iff_toNat_lt, toNat_toUInt8 hlt]
    exact Nat.not_lt.mpr hk
  rw [readFrom, readByte, readLead, if_neg hhigh, h]
  rfl

theorem inside_bounds (hm : m < 0x40) (hlower : lower.toNat ≤ 0x80 + m)
    (hupper : 0x80 + m ≤ upper.toNat) :
    lower ≤ (0x80 + m).toUInt8 ∧ (0x80 + m).toUInt8 ≤ upper := by
  rw [UInt8.le_iff_toNat_le, UInt8.le_iff_toNat_le, toNat_toUInt8 (by omega)]
  exact ⟨hlower, hupper⟩

theorem readFrom_continue (hm : m < 0x40) (hlower : lower.toNat ≤ 0x80 + m)
    (hupper : 0x80 + m ≤ upper.toNat) :
    readFrom offset (some ⟨value, missing + 2, lower, upper, lead, length⟩)
        ((0x80 + m).toUInt8 :: bs) =
      readFrom (offset + 1) (some ⟨value * 64 + m, missing + 1, 0x80, 0xbf, lead, length + 1⟩)
        bs := by
  rw [readFrom, readByte, if_pos (inside_bounds hm hlower hupper), if_neg (by simp),
    toNat_toUInt8 (by omega), Nat.add_sub_cancel_left]
  rfl

theorem readFrom_middle (hm : m < 0x40) :
    readFrom offset (some ⟨value, missing + 2, 0x80, 0xbf, lead, length⟩)
        ((0x80 + m).toUInt8 :: bs) =
      readFrom (offset + 1) (some ⟨value * 64 + m, missing + 1, 0x80, 0xbf, lead, length + 1⟩)
        bs := by
  apply readFrom_continue hm
  · exact Nat.le_add_right 0x80 m
  · exact Nat.add_le_add_left (Nat.le_of_lt_succ hm) 0x80

theorem readFrom_last (hm : m < 0x40) :
    readFrom offset (some ⟨value, 1, 0x80, 0xbf, lead, length⟩) ((0x80 + m).toUInt8 :: bs) =
      .char (Char.ofNat (value * 64 + m)) :: readFrom (offset + 1) none bs := by
  have hbounds : (0x80 : UInt8) ≤ (0x80 + m).toUInt8 ∧ (0x80 + m).toUInt8 ≤ 0xbf := by
    apply inside_bounds hm
    · exact Nat.le_add_right 0x80 m
    · exact Nat.add_le_add_left (Nat.le_of_lt_succ hm) 0x80
  rw [readFrom, readByte, if_pos hbounds, if_pos rfl, toNat_toUInt8 (by omega),
    Nat.add_sub_cancel_left]
  rfl

end

section

variable {n : Nat} (offset : Nat) (bs : List UInt8)

theorem readFrom_one (h : n < 0x80) :
    readFrom offset none (n.toUInt8 :: bs) =
      .char (Char.ofNat n) :: readFrom (offset + 1) none bs := by
  have hlow : n.toUInt8 < 0x80 := by
    rw [UInt8.lt_iff_toNat_lt, toNat_toUInt8 (by omega)]
    exact h
  rw [readFrom, readByte, readLead, if_pos hlow, toNat_toUInt8 (by omega)]
  rfl

theorem readFrom_two (hlow : 0x80 ≤ n) (hlt : n < 0x800) :
    readFrom offset none ((0xc0 + n / 64).toUInt8 :: (0x80 + n % 64).toUInt8 :: bs) =
      .char (Char.ofNat n) :: readFrom (offset + 2) none bs := by
  have hvalue : n / 64 * 64 + n % 64 = n := by omega
  rw [readFrom_lead (by omega) (by omega) (begin?_two (n / 64) (by omega) (by omega)),
    readFrom_last (by omega), hvalue]

theorem readFrom_three (hlow : 0x800 ≤ n) (hlt : n < 0x10000)
    (hvalid : n < 0xd800 ∨ 0xdfff < n) :
    readFrom offset none ((0xe0 + n / 4096).toUInt8 :: (0x80 + n / 64 % 64).toUInt8 ::
        (0x80 + n % 64).toUInt8 :: bs) =
      .char (Char.ofNat n) :: readFrom (offset + 3) none bs := by
  have hvalue : (n / 4096 * 64 + n / 64 % 64) * 64 + n % 64 = n := by omega
  -- below is a form that is too long, above is a surrogate
  have hlower : (if n / 4096 = 0 then 0xa0 else 0x80 : UInt8).toNat ≤ 0x80 + n / 64 % 64 := by
    split
    · change 0xa0 ≤ 0x80 + n / 64 % 64
      omega
    · exact Nat.le_add_right 0x80 _
  have hupper : 0x80 + n / 64 % 64 ≤ (if n / 4096 = 0xd then 0x9f else 0xbf : UInt8).toNat := by
    split
    · change 0x80 + n / 64 % 64 ≤ 0x9f
      omega
    · change 0x80 + n / 64 % 64 ≤ 0xbf
      omega
  rw [readFrom_lead (by omega) (by omega) (begin?_three (n / 4096) (by omega)),
    readFrom_continue (by omega) hlower hupper, readFrom_last (by omega), hvalue]

theorem readFrom_four (hlow : 0x10000 ≤ n) (hlt : n < 0x110000) :
    readFrom offset none ((0xf0 + n / 262144).toUInt8 :: (0x80 + n / 4096 % 64).toUInt8 ::
        (0x80 + n / 64 % 64).toUInt8 :: (0x80 + n % 64).toUInt8 :: bs) =
      .char (Char.ofNat n) :: readFrom (offset + 4) none bs := by
  have hvalue : ((n / 262144 * 64 + n / 4096 % 64) * 64 + n / 64 % 64) * 64 + n % 64 = n := by
    omega
  -- below is a form that is too long, above is no code point
  have hlower : (if n / 262144 = 0 then 0x90 else 0x80 : UInt8).toNat ≤ 0x80 + n / 4096 % 64 := by
    split
    · change 0x90 ≤ 0x80 + n / 4096 % 64
      omega
    · exact Nat.le_add_right 0x80 _
  have hupper : 0x80 + n / 4096 % 64 ≤ (if n / 262144 = 4 then 0x8f else 0xbf : UInt8).toNat := by
    split
    · change 0x80 + n / 4096 % 64 ≤ 0x8f
      omega
    · change 0x80 + n / 4096 % 64 ≤ 0xbf
      omega
  rw [readFrom_lead (by omega) (by omega) (begin?_four (n / 262144) (by omega)),
    readFrom_continue (by omega) hlower hupper, readFrom_middle (by omega),
    readFrom_last (by omega), hvalue]

end

theorem readFrom_encodeChar (c : Char) (offset : Nat) (bs : List UInt8) :
    ∃ next, readFrom offset none (encodeChar c ++ bs) = .char c :: readFrom next none bs := by
  have hvalid : c.toNat < 0xd800 ∨ 0xdfff < c.toNat ∧ c.toNat < 0x110000 := c.valid
  have hc : Char.ofNat c.toNat = c := Char.ofNat_toNat c
  have hzero : Nat.pow 64 0 = 1 := rfl
  have hone : Nat.pow 64 1 = 64 := rfl
  have htwo : Nat.pow 64 2 = 4096 := rfl
  have hthree : Nat.pow 64 3 = 262144 := rfl
  rw [encodeChar]
  generalize c.toNat = n at hvalid hc ⊢
  subst hc
  simp only [hzero, hone, htwo, hthree, Nat.div_one]
  split
  · rename_i hn
    exact ⟨_, readFrom_one offset bs hn⟩
  · split
    · rename_i hge hn
      exact ⟨_, readFrom_two offset bs (Nat.not_lt.mp hge) hn⟩
    · split
      · rename_i hge hn
        exact ⟨_, readFrom_three offset bs (Nat.not_lt.mp hge) hn (hvalid.imp_right And.left)⟩
      · rename_i hge
        exact ⟨_, readFrom_four offset bs (Nat.not_lt.mp hge) (by omega)⟩

theorem collect_readFrom_encode (t : Text) (offset : Nat) :
    collect (readFrom offset none (encode t)) = .ok t := by
  induction t generalizing offset with
  | nil => rfl
  | cons c t ih =>
    obtain ⟨next, hread⟩ := readFrom_encodeChar c offset (encode t)
    rw [encode, List.flatMap_cons, ← encode, hread, collect, ih]
    rfl

theorem decodeStrict_encode (t : Text) : decodeStrict (encode t) = .ok t :=
  collect_readFrom_encode t 0

end SourceScout.Utf8
