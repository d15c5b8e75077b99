import Mathlib.Algebra.Order.Ring.Nat
import SourceScout.Text.Numeral

/-!
# Numerals and the numbers they stand for

A numeral may have zeros in front, underscores and digits of other scripts, but it has at least as
many digits as its number needs. So the plain digits of a number that was read are within the limit
on numerals, and they stand for the same number.
-/

namespace SourceScout

theorem digitValue?_lt {c : Char} {digit : Nat} (h : digitValue? c = some digit) : digit < 10 := by
  rw [digitValue?] at h
  split at h
  · split at h
    · rename_i hdigit
      have hlast : c.toNat ≤ 57 := (Char.isDigit_iff_toNat.mp hdigit).2
      cases h
      omega
    · cases h
  · obtain ⟨range, -, rfl⟩ := Option.map_eq_some_iff.mp h
    exact Nat.mod_lt _ (by decide)

theorem digitValue?_of_isDigit {c : Char} (h : c.isDigit = true) :
    digitValue? c = some (c.toNat - '0'.toNat) := by
  have hascii : c.toNat < 0x80 := by
    have hlast : c.toNat ≤ 57 := (Char.isDigit_iff_toNat.mp h).2
    omega
  rw [digitValue?, if_pos hascii, if_pos h]
  rfl

theorem not_isNumeralMargin_of_isDigit {c : Char} (h : c.isDigit = true) :
    isNumeralMargin c = false := by
  have hall : ∀ n < 58, 48 ≤ n → isNumeralMargin (Char.ofNat n) = false := by decide +kernel
  obtain ⟨hfirst, hlast⟩ : 48 ≤ c.toNat ∧ c.toNat ≤ 57 := Char.isDigit_iff_toNat.mp h
  have hc := hall c.toNat (by omega) hfirst
  rwa [Char.ofNat_toNat] at hc

namespace Numeral

theorem readDigits_value_lt {scan : DigitScan} (h : scan.value < 10 ^ scan.count) (t : Text) :
    (readDigits scan t).1.value < 10 ^ (readDigits scan t).1.count := by
  induction t generalizing scan with
  | nil => exact h
  | cons c cs ih =>
    rw [readDigits]
    split
    · split
      · exact h
      · exact ih h
    · cases hdigit : digitValue? c with
      | none => exact h
      | some digit =>
        apply ih
        have hlt := digitValue?_lt hdigit
        change scan.value * 10 + digit < 10 ^ (scan.count + 1)
        rw [Nat.pow_succ]
        omega

theorem readDigits_of_isDigit (value count : Nat) {digits : Text}
    (h : ∀ c ∈ digits, c.isDigit = true) :
    readDigits ⟨value, count, false⟩ digits =
      (⟨Nat.ofDigitChars 10 digits value, count + digits.length, false⟩, []) := by
  induction digits generalizing value count with
  | nil => rfl
  | cons c cs ih =>
    obtain ⟨hc, hcs⟩ := List.forall_mem_cons.mp h
    have hplain : c ≠ '_' := by
      rintro rfl
      exact absurd hc (by decide)
    rw [readDigits, if_neg hplain, digitValue?_of_isDigit hc]
    simp only [ih _ _ hcs, Nat.ofDigitChars_cons, Nat.mul_comm 10 value, List.length_cons]
    rw [Nat.add_right_comm, Nat.add_assoc]

theorem toInt_eq (raw : Text) : toInt raw =
    let signed := readSign (raw.dropWhile isNumeralMargin)
    let read := readDigits ⟨0, 0, false⟩ signed.2
    if read.1.afterUnderscore || read.1.count = 0 then .error (.notInteger raw)
    else if Failure.maxDigits < read.1.count then .error (.tooManyDigits read.1.count)
    else if read.2.all isNumeralMargin then
      .ok (if signed.1 then -read.1.value else read.1.value)
    else .error (.notInteger raw) := rfl

theorem natAbs_lt_of_toInt {raw : Text} {n : Int} (h : toInt raw = .ok n) :
    n.natAbs < 10 ^ Failure.maxDigits := by
  rw [toInt_eq] at h
  have hread := @readDigits_value_lt ⟨0, 0, false⟩ Nat.one_pos
    (readSign (raw.dropWhile isNumeralMargin)).2
  dsimp only at h
  split at h
  · cases h
  · split at h
    · cases h
    · rename_i hcount
      have hlimit := Nat.pow_le_pow_right (show 0 < 10 by decide) (Nat.not_lt.mp hcount)
      split at h
      · cases h
        split <;> omega
      · cases h

theorem toInt_ofNat {n : Nat} (h : n < 10 ^ Failure.maxDigits) : toInt (Text.ofNat n) = .ok n := by
  have hdigits : ∀ c ∈ Text.ofNat n, c.isDigit = true := fun c hc =>
    Nat.isDigit_of_mem_toDigits (by decide) (by decide) hc
  have hlength : (Text.ofNat n).length ≤ Failure.maxDigits :=
    (Nat.length_toDigits_le_iff (by decide) (by decide)).mpr h
  have hne : Text.ofNat n ≠ [] := Nat.toDigits_ne_nil
  obtain ⟨c, cs, hcons⟩ := List.exists_cons_of_ne_nil hne
  have hc : c.isDigit = true := hdigits c (hcons ▸ List.mem_cons_self)
  have hmargin : (Text.ofNat n).dropWhile isNumeralMargin = Text.ofNat n := by
    rw [hcons, List.dropWhile_cons_of_neg (by simp [not_isNumeralMargin_of_isDigit hc])]
  have hsign : readSign (Text.ofNat n) = (false, Text.ofNat n) := by
    rw [hcons, readSign]
    · rintro rest ⟨⟩
      exact absurd hc (by decide)
    · rintro rest ⟨⟩
      exact absurd hc (by decide)
  have hread : readDigits ⟨0, 0, false⟩ (Text.ofNat n) =
      (⟨n, (Text.ofNat n).length, false⟩, []) := by
    have hvalue : Nat.ofDigitChars 10 (Text.ofNat n) 0 = n := Nat.ofDigitChars_ten_toDigits
    rw [readDigits_of_isDigit 0 0 hdigits, hvalue, Nat.zero_add]
  rw [toInt_eq, hmargin, hsign]
  simp [hread, hne, Nat.not_lt.mpr hlength]

end Numeral

end SourceScout
