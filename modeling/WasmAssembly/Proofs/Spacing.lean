import WasmAssembly.Proofs.Lexeme

/-!
# Words and gaps

Every text is a row of words with gaps before, between and after them, and
cutting it gives the words back. Which characters may stand in a word is decided
by the four delimiters alone. The words are also ranges of bytes of the text, and
both ends of such a range are boundaries between characters.
-/

set_option autoImplicit false

namespace WasmAssembly

def interleave : List String → List String → String
  | gap :: gaps, word :: words => gap ++ (word ++ interleave gaps words)
  | gap :: _, [] => gap
  | [], _ => ""

/-- There is a gap before each word and one at the end, and no two words touch. -/
structure Spacing (gaps words : List String) : Prop where
  length : gaps.length = words.length + 1
  blank : ∀ gap ∈ gaps, IsGap gap
  apart : ∀ gap ∈ gaps.tail.dropLast, gap ≠ ""

def Detached (rest : String) : Prop :=
  rest = "" ∨ ∃ (d : Char) (more : String), d ∈ delimiters ∧ rest = String.singleton d ++ more

variable {gap word rest : String} {gaps words : List String}

theorem tokenize_word_append (hw : IsWord word) (hr : Detached rest) :
    tokenize (word ++ rest) = word :: tokenize rest := by
  rcases hr with rfl | ⟨d, more, hd, rfl⟩
  · rw [String.append_empty, tokenize_of_isWord hw]
    rfl
  · rw [tokenize_append_delimiter hd, tokenize_of_isWord hw,
      tokenize_gap_append (isGap_singleton hd)]
    rfl

theorem IsGap.detached_append (hg : IsGap gap) (h : gap ≠ "") (rest : String) :
    Detached (gap ++ rest) := by
  obtain ⟨d, more, rfl⟩ := exists_singleton_append h
  exact .inr ⟨d, more ++ rest, hg d (by simp), String.append_assoc ..⟩

theorem IsGap.detached (hg : IsGap gap) : Detached gap := by
  by_cases h : gap = ""
  · exact .inl h
  · have hd := hg.detached_append h ""
    rwa [String.append_empty] at hd

namespace Spacing

theorem tail (h : Spacing (gap :: gaps) (word :: words)) : Spacing gaps words where
  length := by simpa using h.length
  blank := fun g hg => h.blank g (by simp [hg])
  apart := by
    intro g hg
    rw [← List.tail_dropLast] at hg
    exact h.apart g (List.mem_of_mem_tail hg)

theorem detached (h : Spacing (gap :: gaps) (word :: words)) :
    Detached (interleave gaps words) := by
  obtain ⟨g, gs, rfl⟩ : ∃ g gs, gaps = g :: gs :=
    List.exists_cons_of_length_eq_add_one h.tail.length
  have hg : IsGap g := h.blank g (by simp)
  cases words with
  | nil => exact hg.detached
  | cons w ws =>
    obtain ⟨g', gs, rfl⟩ : ∃ g' gs', gs = g' :: gs' :=
      List.exists_cons_of_length_eq_add_one h.tail.tail.length
    exact hg.detached_append (h.apart g (by simp)) _

end Spacing

theorem tokenize_interleave (hw : ∀ word ∈ words, IsWord word) (hs : Spacing gaps words) :
    tokenize (interleave gaps words) = words := by
  induction words generalizing gaps with
  | nil =>
    obtain ⟨gap, rfl⟩ := List.length_eq_one_iff.mp hs.length
    have hgap := tokenize_gap_append (hs.blank gap (by simp)) ""
    rw [String.append_empty] at hgap
    exact hgap
  | cons word words ih =>
    obtain ⟨gap, gaps, rfl⟩ := List.exists_cons_of_length_eq_add_one hs.length
    rw [interleave, tokenize_gap_append (hs.blank gap (by simp)),
      tokenize_word_append (hw word (by simp)) hs.detached,
      ih (fun w h => hw w (by simp [h])) hs.tail]

theorem tokenize_word_between {before after gap' : String} (hg : IsGap gap) (hg' : IsGap gap')
    (hbefore : before = "" ∨ gap ≠ "") (hafter : after = "" ∨ gap' ≠ "") (hw : IsWord word) :
    tokenize (before ++ gap ++ (word ++ (gap' ++ after))) =
      tokenize before ++ word :: tokenize after := by
  have hdetached : Detached (gap' ++ after) := by
    rcases hafter with rfl | h
    · rw [String.append_empty]
      exact hg'.detached
    · exact hg'.detached_append h after
  have hright : tokenize (word ++ (gap' ++ after)) = word :: tokenize after := by
    rw [tokenize_word_append hw hdetached, tokenize_gap_append hg']
  rcases hbefore with rfl | h
  · rw [String.empty_append, tokenize_gap_append hg, hright]
    rfl
  · rw [tokenize_append_gap h hg, hright]

theorem IsGap.cons {d : Char} (hd : d ∈ delimiters) (hg : IsGap gap) :
    IsGap (String.singleton d ++ gap) := by
  intro c hc
  rw [String.toList_append, String.toList_singleton, List.singleton_append, List.mem_cons] at hc
  rcases hc with rfl | hc
  · exact hd
  · exact hg c hc

theorem IsWord.around {c : Char} (hc : c ∉ delimiters) {u v : String} (hu : Undivided u)
    (hv : Undivided v) : IsWord (u ++ String.singleton c ++ v) where
  nonempty := by simp
  undivided := by
    intro d hd
    simp only [String.toList_append, String.toList_singleton, List.mem_append,
      List.mem_singleton] at hd
    rcases hd with (hd | rfl) | hd
    · exact hu d hd
    · exact hc
    · exact hv d hd

theorem undivided_empty : Undivided "" := by simp [Undivided]

theorem IsWord.cons {c : Char} (hc : c ∉ delimiters) (hr : Undivided rest) :
    IsWord (String.singleton c ++ rest) := by
  have h := IsWord.around hc undivided_empty hr
  rwa [String.empty_append] at h

theorem isWord_singleton {c : Char} (hc : c ∉ delimiters) : IsWord (String.singleton c) := by
  have h := IsWord.cons hc undivided_empty
  rwa [String.append_empty] at h

namespace Spacing

theorem widen {d : Char} (hd : d ∈ delimiters) (h : Spacing (gap :: gaps) words) :
    Spacing ((String.singleton d ++ gap) :: gaps) words where
  length := h.length
  blank := by
    intro g hg
    rcases List.mem_cons.mp hg with rfl | hg
    · exact (h.blank gap (by simp)).cons hd
    · exact h.blank g (by simp [hg])
  apart := h.apart

theorem cons (h : Spacing (gap :: gaps) words) (hgap : words ≠ [] → gap ≠ "") (word : String) :
    Spacing ("" :: gap :: gaps) (word :: words) where
  length := by simpa using h.length
  blank := by
    intro g hg
    rcases List.mem_cons.mp hg with rfl | hg
    · simp [IsGap]
    · exact h.blank g hg
  apart := by
    intro g hg
    cases words with
    | nil => simp [List.length_eq_zero_iff.mp (Nat.succ.inj h.length)] at hg
    | cons w ws =>
      obtain ⟨g', gs, rfl⟩ := List.exists_cons_of_length_eq_add_one h.tail.length
      rw [List.tail_cons, List.dropLast_cons_cons, List.mem_cons] at hg
      rcases hg with rfl | hg
      · exact hgap (by simp)
      · exact h.apart g hg

end Spacing

theorem exists_spacing_ofList (cs : List Char) :
    ∃ gaps words : List String, Spacing gaps words ∧ (∀ word ∈ words, IsWord word) ∧
      String.ofList cs = interleave gaps words := by
  induction cs with
  | nil => exact ⟨[""], [], ⟨rfl, by simp [IsGap], by simp⟩, by simp, rfl⟩
  | cons c cs ih =>
    obtain ⟨gaps, words, hs, hw, htext⟩ := ih
    obtain ⟨gap, gaps, rfl⟩ := List.exists_cons_of_length_eq_add_one hs.length
    rw [String.ofList_cons, htext]
    by_cases hc : c ∈ delimiters
    · refine ⟨_, words, hs.widen hc, hw, ?_⟩
      cases words <;> simp [interleave, String.append_assoc]
    by_cases htouch : words ≠ [] → gap ≠ ""
    · refine ⟨_, _, hs.cons htouch (String.singleton c), ?_, by simp [interleave]⟩
      rw [List.forall_mem_cons]
      exact ⟨isWord_singleton hc, hw⟩
    · obtain ⟨hne, hgap⟩ := Classical.not_imp.mp htouch
      obtain ⟨word, words, rfl⟩ := List.exists_cons_of_ne_nil hne
      obtain rfl := Decidable.not_not.mp hgap
      rw [List.forall_mem_cons] at hw
      refine ⟨"" :: gaps, (String.singleton c ++ word) :: words, ⟨hs.length, hs.blank, hs.apart⟩,
        ?_, by simp [interleave, String.append_assoc]⟩
      rw [List.forall_mem_cons]
      exact ⟨.cons hc hw.1.undivided, hw.2⟩

theorem exists_spacing (text : String) :
    (∀ word ∈ tokenize text, IsWord word) ∧
      ∃ gaps : List String, Spacing gaps (tokenize text) ∧
        text = interleave gaps (tokenize text) := by
  obtain ⟨gaps, words, hs, hw, htext⟩ := exists_spacing_ofList text.toList
  rw [String.ofList_toList] at htext
  have htokens : tokenize text = words := by rw [htext, tokenize_interleave hw hs]
  rw [htokens]
  exact ⟨hw, gaps, hs, htext⟩

/-- The part of a text between two places, counted in bytes. There is none unless the
places come in this order and each is a boundary between characters. -/
def slice? (text : String) (start stop : Nat) : Option String :=
  if h : start ≤ stop ∧ String.Pos.Raw.IsValid text ⟨start⟩ ∧
      String.Pos.Raw.IsValid text ⟨stop⟩ then
    some (String.extract (String.Pos.mk ⟨start⟩ h.2.1) (String.Pos.mk ⟨stop⟩ h.2.2))
  else none

/-- The ranges at which a text is cut, found by their places alone. The word that is
being read began at `start`, and the next character stands at `here`. -/
def cuts : Nat → Nat → List Char → List (Nat × Nat)
  | start, here, [] => if start < here then [(start, here)] else []
  | start, here, c :: cs =>
    if isDelimiter c then
      (if start < here then [(start, here)] else []) ++
        cuts (here + c.utf8Size) (here + c.utf8Size) cs
    else cuts start (here + c.utf8Size) cs

def byteCuts (text : String) : List (Nat × Nat) := cuts 0 0 text.toList

namespace Lexeme

def range (l : Lexeme) : Nat × Nat := (l.start, l.stop)

def StandsIn (text : String) (l : Lexeme) : Prop :=
  l.word ≠ [] ∧ ∃ before after : String,
    text = before ++ l.text ++ after ∧ l.start = before.utf8ByteSize

end Lexeme

theorem byteLength_eq (cs : List Char) : byteLength cs = (String.ofList cs).utf8ByteSize := by
  induction cs with
  | nil => rfl
  | cons c cs ih =>
    rw [String.ofList_cons, String.utf8ByteSize_append, String.utf8ByteSize_singleton, ← ih]
    rfl

theorem byteLength_cons (c : Char) (cs : List Char) :
    byteLength (c :: cs) = c.utf8Size + byteLength cs := rfl

theorem byteLength_reverse (cs : List Char) : byteLength cs.reverse = byteLength cs := by
  induction cs with
  | nil => rfl
  | cons c cs ih =>
    rw [byteLength_eq, byteLength_eq] at *
    simp [String.ofList_append, String.ofList_cons, String.utf8ByteSize_append, ih, Nat.add_comm]

theorem byteLength_pos {cs : List Char} (h : cs ≠ []) : 0 < byteLength cs := by
  obtain ⟨c, cs, rfl⟩ := List.exists_cons_of_ne_nil h
  have hc := c.utf8Size_pos
  rw [byteLength_cons]
  omega

theorem slice?_append (before middle after : String) :
    slice? (before ++ middle ++ after) before.utf8ByteSize
      (before.utf8ByteSize + middle.utf8ByteSize) = some middle := by
  have hstart : String.Pos.Raw.IsValid (before ++ middle ++ after) ⟨before.utf8ByteSize⟩ :=
    String.Pos.Raw.isValid_iff_exists_append.mpr
      ⟨before, middle ++ after, String.append_assoc .., rfl⟩
  have hstop : String.Pos.Raw.IsValid (before ++ middle ++ after)
      ⟨before.utf8ByteSize + middle.utf8ByteSize⟩ :=
    String.Pos.Raw.isValid_iff_exists_append.mpr
      ⟨before ++ middle, after, rfl, by rw [← String.utf8ByteSize_append]; rfl⟩
  have hbytes : ((before ++ middle).toByteArray ++ after.toByteArray).extract before.utf8ByteSize
      (before ++ middle).toByteArray.size = middle.toByteArray := by
    rw [ByteArray.extract_append_size_left, String.toByteArray_append]
    exact ByteArray.extract_append_eq_right rfl ByteArray.size_append
  rw [String.size_toByteArray, String.utf8ByteSize_append] at hbytes
  rw [slice?, dif_pos ⟨Nat.le_add_right .., hstart, hstop⟩, Option.some_inj,
    ← String.toByteArray_inj, String.toByteArray_extract, String.toByteArray_append]
  exact hbytes

namespace Lexeme

theorem map_range_close (start : Nat) (gathered : List Char) :
    (close start gathered).map range =
      if start < start + byteLength gathered then [(start, start + byteLength gathered)]
      else [] := by
  cases gathered with
  | nil => simp [close, byteLength]
  | cons c gathered =>
    have hpos := byteLength_pos (List.cons_ne_nil c gathered)
    rw [if_pos (by omega), ← byteLength_reverse]
    rfl

theorem map_range_scan (start : Nat) (gathered cs : List Char) :
    (scan start gathered cs).map range = cuts start (start + byteLength gathered) cs := by
  induction cs generalizing start gathered with
  | nil => exact map_range_close start gathered
  | cons c cs ih =>
    by_cases hc : isDelimiter c = true
    · rw [scan, cuts, if_pos hc, if_pos hc, List.map_append, map_range_close, ih]
      rfl
    · rw [scan, cuts, if_neg hc, if_neg hc, ih, byteLength_cons, Nat.add_assoc,
        Nat.add_comm c.utf8Size]

theorem standsIn_of_mem_close {text before : String} {gathered cs : List Char}
    (htext : text = before ++ String.ofList gathered.reverse ++ String.ofList cs) {l : Lexeme}
    (hl : l ∈ close before.utf8ByteSize gathered) : l.StandsIn text := by
  cases gathered with
  | nil => cases hl
  | cons c gathered =>
    obtain rfl := List.mem_singleton.mp hl
    exact ⟨by simp, before, String.ofList cs, htext, rfl⟩

/-- The scan has passed `before` and the gathered characters, and `cs` are still to come. -/
theorem standsIn_of_mem_scan {text before : String} {gathered cs : List Char}
    (htext : text = before ++ String.ofList gathered.reverse ++ String.ofList cs) {l : Lexeme}
    (hl : l ∈ scan before.utf8ByteSize gathered cs) : l.StandsIn text := by
  induction cs generalizing before gathered with
  | nil => exact standsIn_of_mem_close htext hl
  | cons c cs ih =>
    by_cases hc : isDelimiter c = true
    · rw [scan, if_pos hc, List.mem_append] at hl
      rcases hl with hl | hl
      · exact standsIn_of_mem_close htext hl
      · have hplace : before.utf8ByteSize + byteLength gathered + c.utf8Size =
            (before ++ String.ofList gathered.reverse ++ String.singleton c).utf8ByteSize := by
          rw [String.utf8ByteSize_append, String.utf8ByteSize_append, ← byteLength_eq,
            byteLength_reverse, String.utf8ByteSize_singleton]
        rw [hplace] at hl
        refine ih ?_ hl
        simp only [htext, String.ofList_cons, List.reverse_nil, String.ofList_nil,
          String.append_empty, String.append_assoc]
    · rw [scan, if_neg hc] at hl
      refine ih ?_ hl
      simp only [htext, List.reverse_cons, String.ofList_append, String.ofList_cons,
        String.ofList_nil, String.append_empty, String.append_assoc]

theorem standsIn_of_mem_lexemes {text : String} {l : Lexeme} (hl : l ∈ lexemes text) :
    l.StandsIn text := by
  have htext : text =
      "" ++ String.ofList ([] : List Char).reverse ++ String.ofList text.toList := by simp
  exact standsIn_of_mem_scan htext hl

theorem StandsIn.start_lt_stop {text : String} {l : Lexeme} (h : l.StandsIn text) :
    l.start < l.stop := by
  have hpos := byteLength_pos h.1
  rw [stop]
  omega

theorem StandsIn.slice? {text : String} {l : Lexeme} (h : l.StandsIn text) :
    slice? text l.start l.stop = some l.text := by
  obtain ⟨-, before, after, rfl, hstart⟩ := h
  rw [stop, hstart, byteLength_eq]
  exact slice?_append before l.text after

end Lexeme

theorem byteCuts_eq (text : String) : byteCuts text = (lexemes text).map Lexeme.range :=
  (Lexeme.map_range_scan 0 [] text.toList).symm

theorem isValid_of_slice? {text part : String} {start stop : Nat}
    (h : slice? text start stop = some part) :
    String.Pos.Raw.IsValid text ⟨start⟩ ∧ String.Pos.Raw.IsValid text ⟨stop⟩ := by
  rw [slice?] at h
  split at h
  · next hplaces => exact hplaces.2
  · cases h

theorem map_slice?_byteCuts (text : String) :
    (byteCuts text).map (fun r => slice? text r.1 r.2) = (tokenize text).map some := by
  rw [byteCuts_eq, tokenize, List.map_map, List.map_map]
  exact List.map_congr_left fun l hl => (Lexeme.standsIn_of_mem_lexemes hl).slice?

/-- Cutting a text undoes writing words with gaps around them. The words of a text are not
empty and hold no delimiter, and they stand in it with gaps between any two; and from words
written so, whatever the gaps, the same words are cut. Found by its place in bytes, each
word is a part of the text that begins and ends between characters. Only the four
delimiters end a word: any other character, white space or not, stays inside. -/
theorem tokenize_inverts_writing :
    (∀ text : String, (∀ word ∈ tokenize text, IsWord word) ∧
      ∃ gaps : List String, Spacing gaps (tokenize text) ∧
        text = interleave gaps (tokenize text)) ∧
    (∀ gaps words : List String, (∀ word ∈ words, IsWord word) → Spacing gaps words →
      tokenize (interleave gaps words) = words) ∧
    (∀ text : String, byteCuts text = (lexemes text).map Lexeme.range ∧
      (∀ r ∈ byteCuts text, r.1 < r.2 ∧ r.2 ≤ text.utf8ByteSize ∧
        String.Pos.Raw.IsValid text ⟨r.1⟩ ∧ String.Pos.Raw.IsValid text ⟨r.2⟩) ∧
      (byteCuts text).map (fun r => slice? text r.1 r.2) = (tokenize text).map some) ∧
    ∀ c : Char, c ∉ delimiters → ∀ before gap u v gap' after : String,
      IsGap gap → IsGap gap' → (before = "" ∨ gap ≠ "") → (after = "" ∨ gap' ≠ "") →
      Undivided u → Undivided v →
      tokenize (before ++ gap ++ (u ++ String.singleton c ++ v ++ (gap' ++ after))) =
        tokenize before ++ (u ++ String.singleton c ++ v) :: tokenize after := by
  refine ⟨exists_spacing, fun gaps words => tokenize_interleave, ?_, ?_⟩
  · intro text
    refine ⟨byteCuts_eq text, ?_, map_slice?_byteCuts text⟩
    intro r hr
    rw [byteCuts_eq] at hr
    obtain ⟨l, hl, rfl⟩ := List.mem_map.mp hr
    have hstands := Lexeme.standsIn_of_mem_lexemes hl
    obtain ⟨hstart, hstop⟩ := isValid_of_slice? hstands.slice?
    exact ⟨hstands.start_lt_stop, hstop.le_rawEndPos, hstart, hstop⟩
  · intro c hc before gap u v gap' after hg hg' hbefore hafter hu hv
    exact tokenize_word_between hg hg' hbefore hafter (.around hc hu hv)

theorem tokenize_inverts_writing_wide_characters :
    let words := ["föö", "b\x0b\u0085"]
    let gaps := ["\t", " \r\n", ""]
    let text := "\tföö \r\nb\x0b\u0085"
    ((∀ word ∈ words, IsWord word) ∧ Spacing gaps words ∧ text = interleave gaps words) ∧
      tokenize text = words ∧
      (byteCuts text = [(1, 6), (9, 13)] ∧ String.Pos.Raw.IsValid text ⟨6⟩ ∧
        [slice? text 1 6, slice? text 9 13] = [some "föö", some "b\x0b\u0085"]) ∧
      tokenize ("föö" ++ " " ++ ("b" ++ String.singleton '\u2028' ++ "r" ++ ("\n" ++ "x"))) =
        tokenize "föö" ++ ("b" ++ String.singleton '\u2028' ++ "r") :: tokenize "x" := by
  intro words gaps text
  have hw : ∀ word ∈ words, IsWord word := by
    intro word h
    simp only [words, List.mem_cons, List.not_mem_nil, or_false] at h
    rcases h with rfl | rfl <;> exact ⟨by decide, by simp [Undivided, delimiters]⟩
  have hs : Spacing gaps words := by
    refine ⟨rfl, ?_, by simp [gaps]⟩
    intro gap h
    simp only [gaps, List.mem_cons, List.not_mem_nil, or_false] at h
    rcases h with rfl | rfl | rfl <;> simp [IsGap, delimiters]
  have htext : text = interleave gaps words := by decide +kernel
  have hcuts : byteCuts text = [(1, 6), (9, 13)] := by decide +kernel
  obtain ⟨-, hwritten, hbytes, hother⟩ := tokenize_inverts_writing
  have htokens := hwritten gaps words hw hs
  rw [← htext] at htokens
  have hslices := (hbytes text).2.2
  rw [hcuts, htokens] at hslices
  refine ⟨⟨hw, hs, htext⟩, htokens, ⟨hcuts, ?_, hslices⟩, ?_⟩
  · exact ((hbytes text).2.1 (1, 6) (by rw [hcuts]; simp)).2.2.2
  · exact hother '\u2028' (by decide) "föö" " " "b" "r" "\n" "x" (by simp [IsGap, delimiters])
      (by simp [IsGap, delimiters]) (by decide) (by decide) (by simp [Undivided, delimiters])
      (by simp [Undivided, delimiters])

end WasmAssembly
