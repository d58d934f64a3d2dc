import Mathlib.Data.List.TakeWhile
import WasmAssembly.Numeral

/-!
# Reading back what was written

Digits are read from left to right with a check at every step. Since a longer
run of digits never denotes less, the checks before the last one ask for
nothing new: a run of digits whose value is in the range is read to its end.
The decimal form of an integer of the range is therefore read as that integer,
and it is written without anything that reading would ignore.
-/

set_option autoImplicit false

namespace WasmAssembly.Numeral

def Sign.signed : Sign → Nat → Int
  | .plus, n => n
  | .minus, n => -n

theorem Sign.signed_zero (sign : Sign) : sign.signed 0 = 0 := by
  cases sign <;> rfl

theorem Sign.extend_signed (sign : Sign) (n digit : Nat) :
    sign.extend (sign.signed n * 10) digit = sign.signed (10 * n + digit) := by
  cases sign <;> simp only [signed, extend] <;> omega

theorem Sign.signed_mem {range : IntRange} {sign : Sign} {m n : Nat} (h0 : 0 ∈ range)
    (hn : sign.signed n ∈ range) (hm : m ≤ n) : sign.signed m ∈ range := by
  rw [IntRange.mem_iff] at *
  cases sign <;> simp only [signed] at * <;> omega

theorem le_ofDigitChars (cs : List Char) (n : Nat) : n ≤ Nat.ofDigitChars 10 cs n := by
  induction cs generalizing n with
  | nil => simp
  | cons c cs ih =>
    rw [Nat.ofDigitChars_cons]
    have := ih (10 * n + (c.toNat - '0'.toNat))
    omega

theorem shift_digit {range : IntRange} {sign : Sign} {n : Nat} {c : Char} (hc : c.isDigit = true)
    (h0 : 0 ∈ range) (h : sign.signed (10 * n + (c.toNat - '0'.toNat)) ∈ range) :
    shift range sign (sign.signed n) c =
      .ok (sign.signed (10 * n + (c.toNat - '0'.toNat))) := by
  have hprod : sign.signed n * 10 ∈ range := by
    have h10 : sign.signed n * 10 = sign.signed (10 * n) := by
      cases sign <;> simp only [Sign.signed] <;> omega
    rw [h10]
    exact Sign.signed_mem h0 h (by omega)
  simp only [shift, digit?, hc, if_true, Sign.extend_signed]
  rw [if_pos ⟨hprod, h⟩]

theorem shift_not_digit {range : IntRange} {sign : Sign} {value : Int} {c : Char}
    (hc : c.isDigit = false) : shift range sign value c = .error .invalidDigit := by
  simp [shift, digit?, hc]

theorem shift_overflow {range : IntRange} {sign : Sign} {value : Int} {c : Char} {digit : Nat}
    (hc : digit? c = some digit)
    (h : value * 10 ∉ range ∨ sign.extend (value * 10) digit ∉ range) :
    shift range sign value c = .error sign.overflow := by
  rw [shift, hc]
  exact if_neg fun hin => h.elim (fun hout => hout hin.1) fun hout => hout hin.2

/-- The value of the whole run of digits decides whether some step on the way leaves the
range, and what follows the run matters only if none does. -/
theorem digits_eq {range : IntRange} {sign : Sign} (h0 : 0 ∈ range) {n : Nat}
    (hn : sign.signed n ∈ range) (cs : List Char) :
    digits range sign (sign.signed n) cs =
      if sign.signed (Nat.ofDigitChars 10 (cs.takeWhile Char.isDigit) n) ∈ range then
        if cs.all Char.isDigit then
          .ok (sign.signed (Nat.ofDigitChars 10 (cs.takeWhile Char.isDigit) n))
        else .error .invalidDigit
      else .error sign.overflow := by
  induction cs generalizing n with
  | nil => simp [digits, hn]
  | cons c cs ih =>
    cases hc : c.isDigit with
    | false => simp [digits, shift_not_digit hc, hc, hn]
    | true =>
      rw [List.takeWhile_cons_of_pos hc, Nat.ofDigitChars_cons, List.all_cons, hc, Bool.true_and,
        digits]
      by_cases hstep : sign.signed (10 * n + (c.toNat - '0'.toNat)) ∈ range
      · rw [shift_digit hc h0 hstep]
        exact ih hstep
      · have hdigit : digit? c = some (c.toNat - '0'.toNat) := by rw [digit?, if_pos hc]
        have hrun : sign.signed (Nat.ofDigitChars 10 (cs.takeWhile Char.isDigit)
            (10 * n + (c.toNat - '0'.toNat))) ∉ range :=
          fun hin => hstep (Sign.signed_mem h0 hin (le_ofDigitChars _ _))
        rw [shift_overflow hdigit (.inr (by rwa [Sign.extend_signed])), if_neg hrun]

theorem digits_eq_ok {range : IntRange} (sign : Sign) (h0 : 0 ∈ range) {cs : List Char}
    (hcs : ∀ c ∈ cs, c.isDigit = true) {n : Nat}
    (h : sign.signed (Nat.ofDigitChars 10 cs n) ∈ range) :
    digits range sign (sign.signed n) cs = .ok (sign.signed (Nat.ofDigitChars 10 cs n)) := by
  have hrun : cs.takeWhile Char.isDigit = cs := List.takeWhile_eq_self_iff.mpr hcs
  rw [digits_eq h0 (Sign.signed_mem h0 h (le_ofDigitChars cs n)), hrun, if_pos h,
    if_pos (List.all_eq_true.mpr hcs)]

theorem read_no_sign (range : IntRange) {c : Char} (hplus : c ≠ '+') (hminus : c ≠ '-')
    (cs : List Char) : read range (c :: cs) = digits range .plus 0 (c :: cs) := by
  unfold read
  split <;> simp_all

theorem read_digits (range : IntRange) {cs : List Char} (hne : cs ≠ [])
    (hcs : ∀ c ∈ cs, c.isDigit = true) : read range cs = digits range .plus 0 cs := by
  obtain ⟨c, cs, rfl⟩ := List.exists_cons_of_ne_nil hne
  have hc := hcs c (by simp)
  have hplus : c ≠ '+' := by rintro rfl; exact absurd hc (by decide)
  have hminus : c ≠ '-' := by rintro rfl; exact absurd hc (by decide)
  exact read_no_sign range hplus hminus cs

theorem read_minus {range : IntRange} (hr : range.least < 0) {cs : List Char} (hne : cs ≠ []) :
    read range ('-' :: cs) = digits range .minus 0 cs := by
  obtain ⟨c, cs, rfl⟩ := List.exists_cons_of_ne_nil hne
  simp [read, hr]

theorem read_write {range : IntRange} (h0 : 0 ∈ range) {i : Int} (hi : i ∈ range) :
    read range (write i).toList = .ok i := by
  have hdigits : ∀ c ∈ Nat.toDigits 10 i.natAbs, c.isDigit = true :=
    fun c hc => Nat.isDigit_of_mem_toDigits (by decide) (by decide) hc
  have hvalue := Nat.ofDigitChars_ten_toDigits (n := i.natAbs)
  by_cases hneg : i < 0
  · have hsign : Sign.minus.signed i.natAbs = i := by simp only [Sign.signed]; omega
    have hr : range.least < 0 := by rw [IntRange.mem_iff] at hi; omega
    have hd := digits_eq_ok .minus h0 hdigits (n := 0) (by rwa [hvalue, hsign])
    rw [hvalue, hsign] at hd
    simp only [write, hneg, if_true, String.toList_append, Nat.toList_repr]
    exact (read_minus hr Nat.toDigits_ne_nil).trans hd
  · have hsign : Sign.plus.signed i.natAbs = i := by simp only [Sign.signed]; omega
    have hd := digits_eq_ok .plus h0 hdigits (n := 0) (by rwa [hvalue, hsign])
    rw [hvalue, hsign] at hd
    simp only [write, hneg, if_false, Nat.toList_repr]
    exact (read_digits range Nat.toDigits_ne_nil hdigits).trans hd

theorem mem_write {i : Int} {c : Char} (hc : c ∈ (write i).toList) :
    c = '-' ∨ c.isDigit = true := by
  have hdigit : c ∈ Nat.toDigits 10 i.natAbs → c.isDigit = true :=
    Nat.isDigit_of_mem_toDigits (by decide) (by decide)
  by_cases hneg : i < 0
  · simp only [write, hneg, if_true, String.toList_append, Nat.toList_repr,
      List.mem_append] at hc
    exact hc.imp (by simp) hdigit
  · simp only [write, hneg, if_false, Nat.toList_repr] at hc
    exact .inr (hdigit hc)

theorem write_ne_empty (i : Int) : write i ≠ "" := by
  by_cases hneg : i < 0 <;> simp [write, hneg]

theorem readInt32_write (i : Int32) : readInt32 (write i.toInt) = .ok i := by
  have hi : i.toInt ∈ IntRange.int32 := by
    have hlow := i.le_toInt
    have hhigh := i.toInt_lt
    rw [IntRange.mem_iff]
    simp only [IntRange.int32]
    omega
  rw [readInt32, read_write (by decide) hi]
  simp [Except.map]

theorem write_toInt_injective {i j : Int32} (h : write i.toInt = write j.toInt) : i = j := by
  have hread := congrArg readInt32 h
  rw [readInt32_write, readInt32_write] at hread
  exact Except.ok.inj hread

theorem isDigit_of_mem_repr {n : Nat} {c : Char} (h : c ∈ n.repr.toList) : c.isDigit = true := by
  rw [Nat.toList_repr] at h
  exact Nat.isDigit_of_mem_toDigits (by decide) (by decide) h

/-- Digits that do not begin with a zero, after a minus sign or none; or a zero
alone, which has no sign. -/
def Canonical (numeral : String) : Prop :=
  numeral = "0" ∨ ∃ (first : Char) (others : List Char),
    first.isDigit = true ∧ first ≠ '0' ∧ (∀ c ∈ others, c.isDigit = true) ∧
      (numeral.toList = first :: others ∨ numeral.toList = '-' :: first :: others)

theorem toDigits_eq_cons {n : Nat} (hn : 0 < n) :
    ∃ (first : Char) (others : List Char),
      Nat.toDigits 10 n = first :: others ∧ first ≠ '0' := by
  induction n using Nat.strongRecOn with
  | ind n ih =>
    by_cases hlt : n < 10
    · have hdigit : ∀ d < 10, 0 < d → d.digitChar ≠ '0' := by decide
      exact ⟨n.digitChar, [], Nat.toDigits_of_lt_base hlt, hdigit n hlt hn⟩
    · obtain ⟨first, others, hd, hf⟩ := ih (n / 10) (by omega) (by omega)
      refine ⟨first, others ++ [(n % 10).digitChar], ?_, hf⟩
      rw [Nat.toDigits_of_base_le (by decide) (by omega), hd, List.cons_append]

theorem canonical_write (i : Int) : Canonical (write i) := by
  by_cases hzero : i = 0
  · subst hzero
    exact .inl (by decide)
  · obtain ⟨first, others, hd, hf⟩ := toDigits_eq_cons (n := i.natAbs) (by omega)
    have hdigits : ∀ c ∈ first :: others, c.isDigit = true := fun c hc =>
      Nat.isDigit_of_mem_toDigits (by decide) (by decide) (hd ▸ hc)
    refine .inr ⟨first, others, hdigits first (by simp), hf,
      fun c hc => hdigits c (by simp [hc]), ?_⟩
    by_cases hneg : i < 0
    · exact .inr (by simp [write, hneg, Nat.toList_repr, hd])
    · exact .inl (by simp [write, hneg, Nat.toList_repr, hd])

end WasmAssembly.Numeral
