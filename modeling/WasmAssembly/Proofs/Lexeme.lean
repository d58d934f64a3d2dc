import WasmAssembly.Token.Lexeme

/-!
# Cutting a text at its delimiters

A word holds no delimiter and a gap holds nothing else. A delimiter cuts a text
in two parts whose tokens do not depend on each other. So the tokens of texts
written one after another, with gaps between them, are the tokens of each of the
texts in a row.
-/

set_option autoImplicit false

namespace WasmAssembly

def delimiters : List Char := [' ', '\t', '\n', '\r']

def Undivided (s : String) : Prop := ∀ c ∈ s.toList, c ∉ delimiters

structure IsWord (word : String) : Prop where
  nonempty : word ≠ ""
  undivided : Undivided word

/-- A gap may be empty. -/
def IsGap (gap : String) : Prop := ∀ c ∈ gap.toList, c ∈ delimiters

theorem isDelimiter_iff {c : Char} : isDelimiter c = true ↔ c ∈ delimiters := by
  simp [isDelimiter, delimiters, or_assoc]

theorem isDelimiter_eq_false_iff {c : Char} : isDelimiter c = false ↔ c ∉ delimiters := by
  rw [← Bool.not_eq_true, isDelimiter_iff]

theorem notMem_delimiters_of_isDigit {c : Char} (h : c.isDigit = true) : c ∉ delimiters := by
  intro hc
  simp only [delimiters, List.mem_cons, List.not_mem_nil, or_false] at hc
  rcases hc with rfl | rfl | rfl | rfl <;> exact absurd h (by decide)

theorem isGap_singleton {d : Char} (hd : d ∈ delimiters) : IsGap (String.singleton d) := by
  simpa [IsGap] using hd

theorem isGap_space : IsGap " " := by simp [IsGap, delimiters]

theorem isGap_newline : IsGap "\n" := by simp [IsGap, delimiters]

namespace Lexeme

theorem map_text_scan_start (start start' : Nat) (gathered cs : List Char) :
    (scan start gathered cs).map text = (scan start' gathered cs).map text := by
  induction cs generalizing start start' gathered with
  | nil => by_cases hg : gathered.isEmpty <;> simp [scan, close, hg, text]
  | cons c cs ih =>
    by_cases hc : isDelimiter c = true
    · simp only [scan, hc, if_true, List.map_append]
      congr 1
      · by_cases hg : gathered.isEmpty <;> simp [close, hg, text]
      · exact ih _ _ _
    · simp only [scan, hc]
      exact ih _ _ _

theorem map_text_scan_append {d : Char} (hd : isDelimiter d = true) (start : Nat)
    (gathered cs ds : List Char) :
    (scan start gathered (cs ++ d :: ds)).map text =
      (scan start gathered cs).map text ++ (scan 0 [] ds).map text := by
  induction cs generalizing start gathered with
  | nil =>
    simp only [List.nil_append, scan, hd, if_true, List.map_append]
    rw [map_text_scan_start]
  | cons c cs ih =>
    by_cases hc : isDelimiter c = true
    · simp only [List.cons_append, scan, hc, if_true, List.map_append, ih, List.append_assoc]
    · simp only [List.cons_append, scan, hc]
      exact ih _ _

theorem scan_word {cs : List Char} (hcs : ∀ c ∈ cs, isDelimiter c = false) (start : Nat)
    (gathered : List Char) : scan start gathered cs = close start (cs.reverse ++ gathered) := by
  induction cs generalizing gathered with
  | nil => rfl
  | cons c cs ih =>
    rw [scan, hcs c (by simp), List.reverse_cons, List.append_assoc]
    exact ih (fun d hd => hcs d (by simp [hd])) (c :: gathered)

end Lexeme

theorem tokenize_eq (text : String) :
    tokenize text = (Lexeme.scan 0 [] text.toList).map Lexeme.text := rfl

theorem tokenize_append_delimiter {d : Char} (hd : d ∈ delimiters) (a b : String) :
    tokenize (a ++ (String.singleton d ++ b)) = tokenize a ++ tokenize b := by
  simp only [tokenize_eq, String.toList_append, String.toList_singleton, List.singleton_append]
  exact Lexeme.map_text_scan_append (isDelimiter_iff.mpr hd) 0 [] a.toList b.toList

theorem tokenize_gap_append {gap : String} (hg : IsGap gap) (b : String) :
    tokenize (gap ++ b) = tokenize b := by
  simp only [tokenize_eq, String.toList_append]
  rw [IsGap] at hg
  generalize gap.toList = ds at hg
  induction ds with
  | nil => rfl
  | cons d ds ih =>
    have hd := isDelimiter_iff.mpr (hg d (by simp))
    have hcut := Lexeme.map_text_scan_append hd 0 [] [] (ds ++ b.toList)
    exact hcut.trans (ih fun c hc => hg c (by simp [hc]))

theorem exists_singleton_append {s : String} (h : s ≠ "") :
    ∃ (c : Char) (more : String), s = String.singleton c ++ more := by
  obtain ⟨c, cs, hcs⟩ := List.exists_cons_of_ne_nil (fun h' => h (String.toList_eq_nil_iff.mp h'))
  refine ⟨c, String.ofList cs, ?_⟩
  rw [← String.ofList_cons, ← hcs, String.ofList_toList]

theorem tokenize_append_gap {gap : String} (hne : gap ≠ "") (hg : IsGap gap) (a b : String) :
    tokenize (a ++ gap ++ b) = tokenize a ++ tokenize b := by
  obtain ⟨d, more, rfl⟩ := exists_singleton_append hne
  have hmore : IsGap more := fun c hc => hg c (by simp [hc])
  rw [String.append_assoc, String.append_assoc, tokenize_append_delimiter (hg d (by simp)),
    tokenize_gap_append hmore]

theorem tokenize_of_isWord {word : String} (hw : IsWord word) : tokenize word = [word] := by
  have hscan : ∀ c ∈ word.toList, isDelimiter c = false :=
    fun c hc => isDelimiter_eq_false_iff.mpr (hw.undivided c hc)
  rw [tokenize_eq, Lexeme.scan_word hscan]
  simp [Lexeme.close, Lexeme.text, hw.nonempty]

end WasmAssembly
