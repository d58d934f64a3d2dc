import WasmAssembly.Proofs.Numeral

/-!
# What a numeral denotes

A numeral is read from left to right, and the first character that cannot be taken
decides. The outcome can be said without the reading: it depends on the sign, on the
longest run of digits after it and on the integer that this run stands for.
-/

set_option autoImplicit false

namespace WasmAssembly.Numeral

/-- Taking the sign off a numeral. A minus sign is one only where the range has
negative integers. -/
inductive Signed (range : IntRange) : List Char → Sign → List Char → Prop where
  | plus (rest : List Char) : Signed range ('+' :: rest) .plus rest
  | minus (rest : List Char) (h : range.least < 0) : Signed range ('-' :: rest) .minus rest
  | none (rest : List Char) (hplus : rest.head? ≠ some '+')
      (hminus : range.least < 0 → rest.head? ≠ some '-') : Signed range rest .plus rest

def denoted (sign : Sign) (ds : List Char) : Int := sign.signed (Nat.ofDigitChars 10 ds 0)

/-- A sign or none, then digits and nothing else, and their value is in the range. -/
def Denotes (range : IntRange) (numeral : String) (i : Int) : Prop :=
  ∃ (sign : Sign) (ds : List Char), Signed range numeral.toList sign ds ∧
    ds ≠ [] ∧ (∀ c ∈ ds, c.isDigit = true) ∧ i = denoted sign ds ∧ i ∈ range

/-- The longest run of digits after the sign stands for an integer outside the range,
whatever comes after it. -/
def Overflows (range : IntRange) (sign : Sign) (numeral : String) : Prop :=
  ∃ rest : List Char, Signed range numeral.toList sign rest ∧
    denoted sign (rest.takeWhile Char.isDigit) ∉ range

structure Exact (range : IntRange) (reader : String → Except NumeralFault Int) : Prop where
  ok : ∀ (s : String) (i : Int), reader s = .ok i ↔ Denotes range s i
  empty : ∀ s : String, reader s = .error .empty ↔ s = ""
  tooLarge : ∀ s : String, reader s = .error .tooLarge ↔ Overflows range .plus s
  tooSmall : ∀ s : String, reader s = .error .tooSmall ↔ Overflows range .minus s
  invalidDigit : ∀ s : String, reader s = .error .invalidDigit ↔
    s ≠ "" ∧ (∀ i, ¬ Denotes range s i) ∧ ∀ sign, ¬ Overflows range sign s
  /-- Up to every digit, the value that is carried along is in the range, and if the product
  or the sum that comes next is not, that is reported. -/
  checked : ∀ (s : String) (sign : Sign) (before : List Char) (c : Char) (after : List Char)
    (value : Int) (digit : Nat), Signed range s.toList sign (before ++ c :: after) →
    digits range sign 0 before = .ok value → digit? c = some digit →
    value ∈ range ∧ (value * 10 ∉ range ∨ sign.extend (value * 10) digit ∉ range →
      reader s = .error sign.overflow)

variable {range : IntRange} {sign : Sign} {cs rest : List Char}

theorem exists_signed (range : IntRange) (cs : List Char) :
    ∃ (sign : Sign) (rest : List Char), Signed range cs sign rest := by
  by_cases hplus : cs.head? = some '+'
  · obtain ⟨rest, rfl⟩ := List.head?_eq_some_iff.mp hplus
    exact ⟨.plus, rest, .plus rest⟩
  · by_cases hminus : range.least < 0 → cs.head? ≠ some '-'
    · exact ⟨.plus, cs, .none cs hplus hminus⟩
    · obtain ⟨hneg, hhead⟩ := Classical.not_imp.mp hminus
      obtain ⟨rest, rfl⟩ := List.head?_eq_some_iff.mp (Classical.not_not.mp hhead)
      exact ⟨.minus, rest, .minus rest hneg⟩

theorem Signed.read (h : Signed range cs sign rest) (hne : rest ≠ []) :
    read range cs = digits range sign 0 rest := by
  obtain ⟨c, rest, rfl⟩ := List.exists_cons_of_ne_nil hne
  cases h with
  | plus => rfl
  | minus _ hneg => exact read_minus hneg hne
  | none _ hplus hminus =>
    by_cases hc : c = '-'
    · -- the range has no negative integers, and the minus sign is no digit
      subst hc
      have hr : ¬ range.least < 0 := fun hneg => hminus hneg rfl
      rw [digits, shift_not_digit (by decide)]
      cases rest <;> simp [Numeral.read, hr]
    · exact read_no_sign range (fun h => hplus (congrArg some h)) hc rest

theorem Signed.read_nil (h : Signed range cs sign []) (hcs : cs ≠ []) :
    Numeral.read range cs = .error .invalidDigit := by
  cases h with
  | plus => rfl
  | minus => rfl
  | none => exact absurd rfl hcs

variable {numeral : String}

theorem Signed.read_eq (h : Signed range cs sign rest) (h0 : 0 ∈ range) (hne : rest ≠ []) :
    Numeral.read range cs =
      if denoted sign (rest.takeWhile Char.isDigit) ∈ range then
        if rest.all Char.isDigit then .ok (denoted sign (rest.takeWhile Char.isDigit))
        else .error .invalidDigit
      else .error sign.overflow := by
  have hzero : sign.signed 0 ∈ range := by rwa [Sign.signed_zero]
  have hdigits := digits_eq h0 hzero rest
  rw [Sign.signed_zero] at hdigits
  exact (h.read hne).trans hdigits

theorem read_of_denotes (h0 : 0 ∈ range) {i : Int} (h : Denotes range numeral i) :
    read range numeral.toList = .ok i := by
  obtain ⟨sign, ds, hs, hne, hall, rfl, hin⟩ := h
  have hrun : ds.takeWhile Char.isDigit = ds := List.takeWhile_eq_self_iff.mpr hall
  rw [hs.read_eq h0 hne, hrun, if_pos hin, if_pos (List.all_eq_true.mpr hall)]

theorem read_of_overflows (h0 : 0 ∈ range) (h : Overflows range sign numeral) :
    read range numeral.toList = .error sign.overflow := by
  obtain ⟨rest, hs, hout⟩ := h
  have hne : rest ≠ [] := by
    rintro rfl
    exact hout (by rwa [List.takeWhile_nil, denoted, Nat.ofDigitChars_nil, Sign.signed_zero])
  rw [hs.read_eq h0 hne, if_neg hout]

theorem read_of_neither (h0 : 0 ∈ range) (hnumeral : numeral ≠ "")
    (hd : ∀ i, ¬ Denotes range numeral i) (ho : ∀ sign, ¬ Overflows range sign numeral) :
    read range numeral.toList = .error .invalidDigit := by
  obtain ⟨sign, rest, hs⟩ := exists_signed range numeral.toList
  by_cases hne : rest = []
  · subst hne
    exact hs.read_nil fun h => hnumeral (String.toList_eq_nil_iff.mp h)
  · have hin : denoted sign (rest.takeWhile Char.isDigit) ∈ range :=
      Decidable.not_not.mp fun hout => ho sign ⟨rest, hs, hout⟩
    have hall : ¬ rest.all Char.isDigit = true := by
      intro hall
      have hdigits := List.all_eq_true.mp hall
      rw [List.takeWhile_eq_self_iff.mpr hdigits] at hin
      exact hd _ ⟨sign, rest, hs, hne, hdigits, rfl, hin⟩
    rw [hs.read_eq h0 hne, if_pos hin, if_neg hall]

theorem read_cases (h0 : 0 ∈ range) (numeral : String) :
    (numeral = "" ∧ read range numeral.toList = .error .empty) ∨
      (∃ i, Denotes range numeral i ∧ read range numeral.toList = .ok i) ∨
      (∃ sign, Overflows range sign numeral ∧
        read range numeral.toList = .error sign.overflow) ∨
      read range numeral.toList = .error .invalidDigit := by
  by_cases he : numeral = ""
  · subst he
    exact .inl ⟨rfl, rfl⟩
  by_cases hd : ∃ i, Denotes range numeral i
  · obtain ⟨i, hi⟩ := hd
    exact .inr (.inl ⟨i, hi, read_of_denotes h0 hi⟩)
  by_cases ho : ∃ sign, Overflows range sign numeral
  · obtain ⟨sign, hsign⟩ := ho
    exact .inr (.inr (.inl ⟨sign, hsign, read_of_overflows h0 hsign⟩))
  · exact .inr (.inr (.inr (read_of_neither h0 he (not_exists.mp hd) (not_exists.mp ho))))

theorem read_overflow_iff (h0 : 0 ∈ range) (sign : Sign) (numeral : String) :
    read range numeral.toList = .error sign.overflow ↔ Overflows range sign numeral := by
  refine ⟨fun h => ?_, read_of_overflows h0⟩
  rcases read_cases h0 numeral with ⟨-, hr⟩ | ⟨i, -, hr⟩ | ⟨sign', ho, hr⟩ | hr
  · cases sign <;> cases hr.symm.trans h
  · cases hr.symm.trans h
  · cases sign <;> cases sign' <;> cases hr.symm.trans h <;> exact ho
  · cases sign <;> cases hr.symm.trans h

theorem digits_append {value next : Int} {before : List Char}
    (h : digits range sign value before = .ok next) (after : List Char) :
    digits range sign value (before ++ after) = digits range sign next after := by
  induction before generalizing value with
  | nil =>
    cases h
    rfl
  | cons c before ih =>
    rw [List.cons_append, digits]
    rw [digits] at h
    cases hshift : shift range sign value c with
    | error fault => rw [hshift] at h; cases h
    | ok value' => rw [hshift] at h; exact ih h

theorem shift_mem {value next : Int} {c : Char} (h : shift range sign value c = .ok next) :
    next ∈ range := by
  rw [shift] at h
  split at h
  · cases h
  · split at h
    · next hin =>
      cases h
      exact hin.2
    · cases h

theorem digits_mem {value next : Int} (hv : value ∈ range)
    (h : digits range sign value cs = .ok next) : next ∈ range := by
  induction cs generalizing value with
  | nil =>
    cases h
    exact hv
  | cons c cs ih =>
    rw [digits] at h
    cases hshift : shift range sign value c with
    | error fault => rw [hshift] at h; cases h
    | ok value' => rw [hshift] at h; exact ih (shift_mem hshift) h

theorem exact_read (h0 : 0 ∈ range) : Exact range fun s => read range s.toList where
  ok s i := by
    refine ⟨fun h => ?_, read_of_denotes h0⟩
    rcases read_cases h0 s with ⟨-, hr⟩ | ⟨j, hj, hr⟩ | ⟨sign, -, hr⟩ | hr <;>
      cases hr.symm.trans h
    exact hj
  empty s := by
    constructor
    · intro h
      rcases read_cases h0 s with ⟨he, -⟩ | ⟨i, -, hr⟩ | ⟨sign, -, hr⟩ | hr
      · exact he
      · cases hr.symm.trans h
      · cases sign <;> cases hr.symm.trans h
      · cases hr.symm.trans h
    · rintro rfl
      rfl
  tooLarge := read_overflow_iff h0 .plus
  tooSmall := read_overflow_iff h0 .minus
  invalidDigit s := by
    constructor
    · intro h
      refine ⟨?_, fun i hi => ?_, fun sign ho => ?_⟩
      · rintro rfl
        cases h
      · cases (read_of_denotes h0 hi).symm.trans h
      · cases sign <;> cases (read_of_overflows h0 ho).symm.trans h
    · rintro ⟨he, hd, ho⟩
      exact read_of_neither h0 he hd ho
  checked s sign before c after value digit hs hbefore hc := by
    refine ⟨digits_mem h0 hbefore, fun hout => ?_⟩
    show read range s.toList = _
    rw [hs.read (by simp), digits_append hbefore, digits, shift_overflow hc hout]

theorem map_readInt32 (s : String) :
    (readInt32 s).map Int32.toInt = read .int32 s.toList := by
  rw [readInt32]
  cases hr : read .int32 s.toList with
  | error fault => rfl
  | ok i =>
    obtain ⟨-, -, -, -, -, -, hlow, hhigh⟩ := ((exact_read (by decide)).ok s i).mp hr
    simp only [IntRange.int32] at hlow hhigh
    exact congrArg Except.ok (Int32.toInt_ofInt_of_le (by omega) (by omega))

theorem map_readWord (s : String) : (readWord s).map Int.ofNat = read .word64 s.toList := by
  rw [readWord]
  cases hr : read .word64 s.toList with
  | error fault => rfl
  | ok i =>
    obtain ⟨-, -, -, -, -, -, hlow, -⟩ := ((exact_read (by decide)).ok s i).mp hr
    exact congrArg Except.ok (Int.toNat_of_nonneg hlow)

/-- Operands and line numbers are read exactly. A numeral is accepted if and only if it is an
optional sign and digits whose value is in the range, and that value is the result. The
empty text has a fault of its own. A value outside the range is the fault as soon as
the longest run of digits denotes one, on the side of the sign that was taken off and
whatever follows the digits, and anything else is a wrong digit. No product and no sum
on the way leaves the range unnoticed. -/
theorem readers_decide_by_value :
    (Exact ⟨-2147483648, 2147483647⟩ fun s => (readInt32 s).map Int32.toInt) ∧
      Exact ⟨0, 18446744073709551615⟩ fun s => (readWord s).map Int.ofNat := by
  constructor
  · simp only [map_readInt32]
    exact exact_read (by decide)
  · simp only [map_readWord]
    exact exact_read (by decide)

/-- The least operand behind zeros; one less, with something behind it; a wrong digit before
the value is too large; a minus sign before a line number; and the last sum of a numeral
that is too large by one. -/
theorem readers_decide_by_value_edges :
    Denotes .int32 "-002147483648" (-2147483648) ∧
      Overflows .int32 .minus "-2147483649x" ∧
      (∀ sign, ¬ Overflows .int32 sign "21x99999999999") ∧
      (∀ i, ¬ Denotes .word64 "-0" i) ∧
      (readInt32 "2147483648").map Int32.toInt = .error .tooLarge := by
  obtain ⟨hint, hword⟩ := readers_decide_by_value
  refine ⟨(hint.ok _ _).mp rfl, (hint.tooSmall _).mp rfl, ((hint.invalidDigit _).mp rfl).2.2,
    ((hword.invalidDigit _).mp rfl).2.1, ?_⟩
  exact (hint.checked "2147483648" .plus "214748364".toList '8' [] 214748364 8
    (.none _ (by decide) (by decide)) rfl rfl).2 (.inr (by decide))

end WasmAssembly.Numeral
