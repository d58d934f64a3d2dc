import WasmAssembly.Proofs.Diagnosis
import WasmAssembly.Proofs.Tallying

/-!
# Verbosity

How often the verbose flag is given decides which records of the log are shown, and
nothing else. First the arguments: more verbose flags, wherever they are put, leave the
other options as they are, as long as the arguments are still accepted. They are not
if a flag comes between an option and its value, which is then a second input. Then the
run: it does not look at the verbosity, so there is one log, and each verbosity shows
the part of it up to its own level.
-/

set_option autoImplicit false

namespace WasmAssembly.Command

inductive MoreLetters : Nat → List Char → List Char → Prop where
  | same (cs : List Char) : MoreLetters 0 cs cs
  | verbose {n : Nat} {cs cs' : List Char} (h : MoreLetters n cs cs') :
      MoreLetters (n + 1) cs ('v' :: cs')
  | flag {n : Nat} {cs cs' : List Char} {c : Char} (hc : c = 'v' ∨ c = 'd')
      (h : MoreLetters n cs cs') : MoreLetters n (c :: cs) (c :: cs')

def verboseFlags (n : Nat) : String := String.ofList ('-' :: List.replicate n 'v')

/-- The arguments, with `n` more verbose flags among them: as arguments of their own, or joined
to other flags. After a double dash there are no flags. -/
inductive MoreVerbose : Nat → List String → List String → Prop where
  | same (args : List String) : MoreVerbose 0 args args
  | keep {n : Nat} {args args' : List String} {arg : String} (harg : arg ≠ "--")
      (h : MoreVerbose n args args') : MoreVerbose n (arg :: args) (arg :: args')
  | insert {n : Nat} {args args' : List String} (k : Nat) (h : MoreVerbose n args args') :
      MoreVerbose (n + (k + 1)) args (verboseFlags (k + 1) :: args')
  | join {n k : Nat} {args args' : List String} {c : Char} {cs cs' : List Char} (hc : c ≠ '-')
      (hletters : MoreLetters k (c :: cs) cs') (h : MoreVerbose n args args') :
      MoreVerbose (n + k) (String.ofList ('-' :: c :: cs) :: args)
        (String.ofList ('-' :: cs') :: args')

theorem MoreLetters.exists_cons {n : Nat} {c : Char} {cs cs' : List Char}
    (h : MoreLetters n (c :: cs) cs') (hc : c ≠ '-') :
    ∃ c' rest, cs' = c' :: rest ∧ c' ≠ '-' := by
  cases h with
  | same => exact ⟨c, cs, rfl, hc⟩
  | @verbose _ _ cs' => exact ⟨'v', cs', rfl, by decide⟩
  | @flag _ _ cs' => exact ⟨c, cs', rfl, hc⟩

theorem ofList_letters_ne_dashes {c : Char} (hc : c ≠ '-') (cs : List Char) :
    String.ofList ('-' :: c :: cs) ≠ "--" := by
  intro h
  have hchars : '-' :: c :: cs = ['-', '-'] := by
    simpa using congrArg String.toList h
  exact hc (List.cons.inj (List.cons.inj hchars).2).1

def Options.louder (n : Nat) (o : Options) : Options := { o with verbosity := o.verbosity + n }

namespace Arguments.Tally

def louder (n : Nat) (t : Tally) : Tally := { t with verbosity := t.verbosity + n }

variable {m n : Nat} {t t' u u' : Tally}

theorem louder_louder (m n : Nat) (t : Tally) : (t.louder m).louder n = t.louder (m + n) := by
  simp [louder, Nat.add_assoc]

theorem plus_louder (t d : Tally) (n : Nat) : t.plus (d.louder n) = (t.plus d).louder n := by
  simp [plus, louder, Nat.add_assoc]

theorem map_louder_plus (t : Tally) (n : Nat) (r : Except Halt Tally) :
    r.map (t.louder n).plus = (r.map t.plus).map (louder n) := by
  cases r with
  | error halt => rfl
  | ok d => simp [Except.map, plus, louder, Nat.add_right_comm]

theorem letters_louder (t : Tally) (n : Nat) (cs : List Char) :
    (t.louder n).letters cs = (t.letters cs).map (louder n) := by
  by_cases hne : cs = []
  · subst hne
    rfl
  · rw [letters_eq _ hne, letters_eq t hne, map_louder_plus]

theorem positional_louder (t : Tally) (n : Nat) (arg : String) :
    (t.louder n).positional arg = (t.positional arg).map (louder n) := by
  obtain ⟨input, line, type, verbosity, grids, awaiting, literal⟩ := t
  cases input <;> rfl

theorem plain_louder (t : Tally) (n : Nat) (arg : String) :
    (t.louder n).plain arg = (t.plain arg).map (louder n) := by
  obtain ⟨input, line, type, verbosity, grids, awaiting, literal⟩ := t
  cases awaiting with
  | none => exact positional_louder _ n arg
  | some s => cases s <;> rfl

theorem argument_louder (t : Tally) (n : Nat) (arg : String) :
    (t.louder n).argument arg = (t.argument arg).map (louder n) := by
  cases hl : t.literal with
  | true =>
    rw [argument_literal hl, argument_literal (t := t.louder n) hl, positional_louder]
  | false =>
    have hl' : (t.louder n).literal = false := hl
    rcases argument_cases arg with rfl | hoption | hplain
    · rw [argument_dashes hl, argument_dashes hl']
      rfl
    · rw [hoption t hl, hoption _ hl', map_louder_plus]
    · rw [hplain t hl, hplain _ hl', plain_louder]

theorem arguments_louder (t : Tally) (n : Nat) (args : List String) :
    (t.louder n).arguments args = (t.arguments args).map (louder n) := by
  induction args generalizing t with
  | nil => rfl
  | cons arg args ih =>
    rw [arguments, arguments, argument_louder]
    cases t.argument arg with
    | error halt => rfl
    | ok u => exact ih u

theorem options_louder (t : Tally) (n : Nat) :
    (t.louder n).options = t.options.map (Options.louder n) := by
  obtain ⟨input, line, type, verbosity, grids, awaiting, literal⟩ := t
  cases input with
  | none => rfl
  | some input =>
    simp only [options, louder, apply_ite (Except.map (Options.louder n))]
    rfl

theorem letters_more {cs cs' : List Char} (h : MoreLetters n cs cs') (ht : t.awaiting = none) :
    t.letters cs' = (t.letters cs).map (louder n) := by
  induction h generalizing t with
  | same cs =>
    cases t.letters cs <;> rfl
  | @verbose n cs cs' h ih =>
    have hraise : t.letters ('v' :: cs') = (t.louder 1).letters cs' := by
      obtain ⟨input, line, type, verbosity, grids, awaiting, literal⟩ := t
      obtain rfl : awaiting = none := ht
      rfl
    rw [hraise, ih (t := t.louder 1) ht, letters_louder]
    cases t.letters cs with
    | error halt => rfl
    | ok d => exact congrArg Except.ok ((louder_louder 1 n d).trans (by rw [Nat.add_comm]))
  | flag hc h ih =>
    rcases hc with rfl | rfl
    · exact ih (t := { t with verbosity := t.verbosity + 1, awaiting := none }) rfl
    · exact ih (t := { t with grids := t.grids + 1, awaiting := none }) rfl

theorem moreLetters_replicate (n : Nat) : MoreLetters n [] (List.replicate n 'v') := by
  induction n with
  | zero => exact .same []
  | succ n ih => exact .verbose ih

theorem argument_verboseFlags (ht : t.literal = false) (n : Nat) :
    t.argument (verboseFlags (n + 1)) = .ok ({ t with awaiting := none }.louder (n + 1)) := by
  have hletters : start.letters (List.replicate (n + 1) 'v') = .ok (start.louder (n + 1)) :=
    letters_more (moreLetters_replicate (n + 1)) rfl
  have harg : (verboseFlags (n + 1)).toList = '-' :: 'v' :: List.replicate n 'v' :=
    String.toList_ofList
  rw [argument_letters ht harg (by decide), ← List.replicate_succ,
    letters_eq t (by simp), hletters]
  exact congrArg Except.ok ((plus_louder t start (n + 1)).trans (by rw [plus_start]))

/-- The second tally has read the same arguments as the first and `n` more verbose flags. It
differs in nothing else, but a flag may have taken a value from its option; once such a
value has come, it is an input too many. -/
inductive Ahead (n : Nat) (t : Tally) : Tally → Prop where
  | level {awaiting : Option Setting} (h : awaiting = t.awaiting ∨ awaiting = none) :
      Ahead n t { t.louder n with awaiting := awaiting }
  | doubled {t' : Tally} (literal : t'.literal = t.literal)
      (awaiting : t'.awaiting = t.awaiting ∨ t'.awaiting = none) (free : t.input = none)
      (taken : t'.input ≠ none) : Ahead n t t'

theorem literal_of_argument {arg : String} (ht : t.literal = false) (harg : arg ≠ "--")
    (h : t.argument arg = .ok u) : u.literal = false := by
  rcases argument_cases arg with rfl | hoption | hplain
  · exact absurd rfl harg
  · rw [hoption t ht] at h
    obtain ⟨d, -, rfl⟩ := exists_of_map_plus h
    exact ht
  · rw [hplain t ht] at h
    cases hw : t.awaiting with
    | none =>
      rw [plain_of_none hw] at h
      rw [(positional_ok h).2]
      exact ht
    | some s =>
      rw [plain_of_some hw] at h
      cases h
      exact (t.give_eq s arg).2.1.trans ht

namespace Ahead

theorem literal_eq (h : Ahead n t t') : t'.literal = t.literal := by
  cases h with
  | level => rfl
  | doubled literal => exact literal

theorem awaiting_eq (h : Ahead n t t') : t'.awaiting = t.awaiting ∨ t'.awaiting = none := by
  cases h with
  | level h => exact h
  | doubled _ awaiting => exact awaiting

theorem more (h : Ahead n t t') (k : Nat) : Ahead (n + k) t (t'.louder k) := by
  cases h with
  | @level awaiting h =>
    have heq : ({ t.louder n with awaiting := awaiting } : Tally).louder k =
        { t.louder (n + k) with awaiting := awaiting } := by
      simp [louder, Nat.add_assoc]
    rw [heq]
    exact .level h
  | doubled literal awaiting free taken => exact .doubled literal awaiting free taken

theorem unawaited (h : Ahead n t t') : Ahead n t { t' with awaiting := none } := by
  cases h with
  | level => exact .level (.inr rfl)
  | doubled literal _ free taken => exact .doubled literal (.inr rfl) free taken

theorem plus (h : Ahead n t t') (d : Tally) : Ahead n (t.plus d) (t'.plus d) := by
  cases h with
  | @level awaiting h =>
    have heq : ({ t.louder n with awaiting := awaiting } : Tally).plus d =
        { (t.plus d).louder n with awaiting := d.awaiting } := by
      simp [Tally.plus, louder, Nat.add_right_comm]
    rw [heq]
    exact .level (.inl rfl)
  | doubled literal _ free taken => exact .doubled literal (.inl rfl) free taken

theorem positional (h : Ahead n t t') {arg : String} (hu : t.positional arg = .ok u)
    (hu' : t'.positional arg = .ok u') : Ahead n u u' := by
  obtain ⟨-, rfl⟩ := positional_ok hu
  obtain ⟨hfree, rfl⟩ := positional_ok hu'
  cases h with
  | level h => exact .level h
  | doubled _ _ _ taken => exact absurd hfree taken

theorem plain (h : Ahead n t t') {arg : String} (hu : t.plain arg = .ok u)
    (hu' : t'.plain arg = .ok u') : Ahead n u u' := by
  cases hw : t.awaiting with
  | none =>
    have hw' : t'.awaiting = none := by
      rcases h.awaiting_eq with heq | heq
      · rw [heq, hw]
      · exact heq
    rw [plain_of_none hw] at hu
    rw [plain_of_none hw'] at hu'
    exact h.positional hu hu'
  | some s =>
    rw [plain_of_some hw] at hu
    cases hu
    obtain ⟨hinput, hliteral, -⟩ := t.give_eq s arg
    rcases h.awaiting_eq with heq | heq
    · rw [plain_of_some (heq.trans hw)] at hu'
      cases hu'
      obtain ⟨hinput', hliteral', hnone'⟩ := t'.give_eq s arg
      cases h with
      | level => cases s <;> exact .level (.inr rfl)
      | doubled literal _ free taken =>
        refine .doubled ?_ (.inr hnone') (hinput.trans free) ?_
        · rw [hliteral, hliteral', literal]
        · rw [hinput']
          exact taken
    · -- the value has lost its option
      rw [plain_of_none heq] at hu'
      obtain ⟨hfree, rfl⟩ := positional_ok hu'
      cases h with
      | level => exact .doubled hliteral.symm (.inr heq) (hinput.trans hfree) (by simp)
      | doubled _ _ _ taken => exact absurd hfree taken

theorem argument (h : Ahead n t t') {arg : String} (hu : t.argument arg = .ok u)
    (hu' : t'.argument arg = .ok u') : Ahead n u u' := by
  cases hl : t.literal with
  | true =>
    rw [argument_literal hl] at hu
    rw [argument_literal (h.literal_eq.trans hl)] at hu'
    exact h.positional hu hu'
  | false =>
    have hl' := h.literal_eq.trans hl
    rcases argument_cases arg with rfl | hoption | hplain
    · rw [argument_dashes hl] at hu
      rw [argument_dashes hl'] at hu'
      cases hu
      cases hu'
      cases h with
      | level h => exact .level h
      | doubled _ awaiting free taken => exact .doubled rfl awaiting free taken
    · rw [hoption t hl] at hu
      rw [hoption t' hl'] at hu'
      obtain ⟨d, hd, rfl⟩ := exists_of_map_plus hu
      rw [hd] at hu'
      cases hu'
      exact h.plus d
    · rw [hplain t hl] at hu
      rw [hplain t' hl'] at hu'
      exact h.plain hu hu'

theorem arguments (h : Ahead n t t') {args : List String} (hu : t.arguments args = .ok u)
    (hu' : t'.arguments args = .ok u') : Ahead n u u' := by
  induction args generalizing t t' with
  | nil =>
    cases hu
    cases hu'
    exact h
  | cons arg args ih =>
    obtain ⟨v, hv, hrest⟩ := arguments_cons_ok hu
    obtain ⟨v', hv', hrest'⟩ := arguments_cons_ok hu'
    exact ih (h.argument hv hv') hrest hrest'

theorem letters (h : Ahead m t t') {c c' : Char} {cs cs' : List Char}
    (hmore : MoreLetters n (c :: cs) (c' :: cs')) (hu : t.letters (c :: cs) = .ok u)
    (hu' : t'.letters (c' :: cs') = .ok u') : Ahead (m + n) u u' := by
  rw [letters_eq t (List.cons_ne_nil c cs)] at hu
  rw [letters_eq t' (List.cons_ne_nil c' cs'), letters_more hmore rfl] at hu'
  obtain ⟨d, hd, rfl⟩ := exists_of_map_plus hu
  rw [hd] at hu'
  cases hu'
  rw [plus_louder]
  exact (h.plus d).more n

theorem moreArguments {args args' : List String} (hmore : MoreVerbose n args args')
    (h : Ahead m t t') (ht : t.literal = false) (hu : t.arguments args = .ok u)
    (hu' : t'.arguments args' = .ok u') : Ahead (m + n) u u' := by
  induction hmore generalizing m t t' with
  | same args => exact h.arguments hu hu'
  | keep harg _ ih =>
    obtain ⟨v, hv, hrest⟩ := arguments_cons_ok hu
    obtain ⟨v', hv', hrest'⟩ := arguments_cons_ok hu'
    exact ih (h.argument hv hv') (literal_of_argument ht harg hv) hrest hrest'
  | @insert n args args' k _ ih =>
    obtain ⟨v', hv', hrest'⟩ := arguments_cons_ok hu'
    rw [argument_verboseFlags (h.literal_eq.trans ht)] at hv'
    cases hv'
    have hahead := ih (h.unawaited.more (k + 1)) ht hu hrest'
    rwa [Nat.add_assoc, Nat.add_comm (k + 1)] at hahead
  | @join n k args args' c cs cs' hc hletters _ ih =>
    obtain ⟨v, hv, hrest⟩ := arguments_cons_ok hu
    obtain ⟨v', hv', hrest'⟩ := arguments_cons_ok hu'
    have hliteral := literal_of_argument ht (ofList_letters_ne_dashes hc cs) hv
    obtain ⟨c', cs', rfl, hc'⟩ := hletters.exists_cons hc
    rw [argument_letters ht String.toList_ofList hc] at hv
    rw [argument_letters (h.literal_eq.trans ht) String.toList_ofList hc'] at hv'
    have hahead := ih (h.letters hletters hv hv') hliteral hrest hrest'
    rwa [Nat.add_assoc, Nat.add_comm k] at hahead

end Ahead

end Arguments.Tally

open Arguments Tally

theorem parse_more {n : Nat} {args args' : List String} {o o' : Options}
    (hmore : MoreVerbose n args args') (h : parse args = .ok o) (h' : parse args' = .ok o') :
    o' = o.louder n := by
  obtain ⟨t, ht, ho⟩ := parse_eq_ok h
  obtain ⟨t', ht', ho'⟩ := parse_eq_ok h'
  have hahead : Ahead (0 + n) t t' := Ahead.moreArguments hmore (.level (.inl rfl)) rfl ht ht'
  rw [Nat.zero_add] at hahead
  cases hahead with
  | level =>
    have heq : (t.louder n).options = .ok o' := ho'
    rw [options_louder, ho] at heq
    cases heq
    rfl
  | doubled _ _ free _ =>
    rw [options, free] at ho
    cases ho

theorem parse_insert {before : List String} {t : Tally} (ht : start.arguments before = .ok t)
    (hawaiting : t.awaiting = none) (hliteral : t.literal = false) (n : Nat)
    (after : List String) :
    parse (before ++ verboseFlags (n + 1) :: after) =
      (parse (before ++ after)).map (Options.louder (n + 1)) := by
  have hflags : t.argument (verboseFlags (n + 1)) = .ok (t.louder (n + 1)) := by
    rw [argument_verboseFlags hliteral, ← hawaiting]
  rw [parse, parse, arguments_append ht, arguments_append ht, arguments, hflags]
  simp only [arguments_louder]
  cases t.arguments after with
  | error halt => rfl
  | ok u =>
    show (u.louder (n + 1)).options.mapError _ = (u.options.mapError _).map _
    rw [options_louder]
    cases u.options <;> rfl

theorem shown_eq_filter (verbosity : Nat) (log : List Log.Record) :
    let levels : List Log.Level := [.error, .warn, .info, .debug]
    shown verbosity log = log.filter fun record => record.level ∈ levels.take (verbosity + 1) := by
  intro levels
  refine List.filter_congr fun ⟨origin, level, message⟩ _ => ?_
  match verbosity with
  | 0 => cases level <;> rfl
  | 1 => cases level <;> rfl
  | 2 => cases level <;> rfl
  | verbosity + 3 =>
    cases level <;> simp [levels, Log.Record.within, threshold, Log.Level.detail]

theorem run_eq_of_parse {args : List String} {o : Options} (h : parse args = .ok o)
    (files : String → Except ReadFault ByteArray) :
    let levels : List Log.Level := [.error, .warn, .info, .debug]
    let r := report o (files o.input)
    let records := r.log.filter fun record => record.level ∈ levels.take (o.verbosity + 1)
    run args files = .ok ⟨r.exit, r.stdout, lines (records.map Log.Record.text)⟩ := by
  intro levels r records
  rw [run_of_parse h files, shown_eq_filter]

theorem filter_take_filter_take (levels : List Log.Level) {m n : Nat} (h : m ≤ n)
    (log : List Log.Record) :
    (log.filter fun record => record.level ∈ levels.take n).filter
        (fun record => record.level ∈ levels.take m) =
      log.filter fun record => record.level ∈ levels.take m := by
  rw [List.filter_filter]
  apply List.filter_congr
  intro record _
  by_cases hm : record.level ∈ levels.take m
  · simp [hm, List.take_subset_take_left _ h hm]
  · simp [hm]

/-- Two runs whose arguments differ by `n` verbose flags, and are accepted with and without them,
have one exit status, one output and one log. Each shows the records of the log that its
verbosity lets through, so the quieter run shows what is left of the other's records without the
levels it does not have, and none shows a trace. The arguments ask for the same, the verbosity
apart. Where no option waits for its value, flags can be added and removed without a change in
what is accepted. -/
theorem run_verbosity_only_filters_log (args args' : List String) (n : Nat) (o o' : Options)
    (files : String → Except ReadFault ByteArray) (hmore : MoreVerbose n args args')
    (h : parse args = .ok o) (h' : parse args' = .ok o') :
    let levels : List Log.Level := [.error, .warn, .info, .debug]
    let log := (report o (files o.input)).log
    let fewer := log.filter fun record => record.level ∈ levels.take (o.verbosity + 1)
    let more := log.filter fun record => record.level ∈ levels.take (o.verbosity + n + 1)
    (∃ (exit : Nat) (stdout : String),
      run args files = .ok ⟨exit, stdout, lines (fewer.map Log.Record.text)⟩ ∧
      run args' files = .ok ⟨exit, stdout, lines (more.map Log.Record.text)⟩) ∧
    fewer = more.filter (fun record => record.level ∈ levels.take (o.verbosity + 1)) ∧
    (∀ record ∈ more, record.level ≠ .trace) ∧
    o' = { o with verbosity := o.verbosity + n } ∧
    ∀ (before after : List String) (t : Tally) (k : Nat),
      start.arguments before = .ok t → t.awaiting = none → t.literal = false →
      parse (before ++ verboseFlags (k + 1) :: after) =
        (parse (before ++ after)).map fun o => { o with verbosity := o.verbosity + (k + 1) } := by
  intro levels log fewer more
  obtain rfl : o' = o.louder n := parse_more hmore h h'
  have hruns : run args files = _ ∧ run args' files = _ :=
    ⟨run_eq_of_parse h files, run_eq_of_parse h' files⟩
  have hle : o.verbosity + 1 ≤ o.verbosity + n + 1 := by omega
  have hfewer := filter_take_filter_take levels hle log
  refine ⟨⟨_, _, hruns⟩, hfewer.symm, ?_, rfl, ?_⟩
  · intro record hrecord htrace
    have hlevel : record.level ∈ levels.take (o.verbosity + n + 1) := by
      simpa using (List.mem_filter.mp hrecord).2
    have hlevels := List.mem_of_mem_take hlevel
    rw [htrace] at hlevels
    simp [levels] at hlevels
  · intro before after t k ht hawaiting hliteral
    exact parse_insert ht hawaiting hliteral k after

theorem run_verbosity_only_filters_log_missing_file :
    let args := ["-d", "-t", "A", "-l", "7", "f"]
    let args' := ["-vd", "-t", "A", "-vv", "-l", "7", "f", "-v"]
    let o : Options := ⟨"f", some "7", ["A"], 0, true⟩
    let files : String → Except ReadFault ByteArray := fun _ => .error .notFound
    let error := "[watasm][ERROR] fatal: unable to read input file `f`: " ++
      "No such file or directory (os error 2)\n"
    MoreVerbose 4 args args' ∧ parse args = .ok o ∧ parse args' = .ok { o with verbosity := 4 } ∧
      run args files = .ok ⟨1, "", error⟩ ∧
      run args' files = .ok ⟨1, "", "[watasm][DEBUG] Arguments:\n\tInfile: f\n\tLine: 7\n" ++
        "\tTypes: [\"A\"]\n" ++ error⟩ ∧
      parse ("-vvv" :: args) = .ok { o with verbosity := 3 } := by
  intro args args' o files error
  have hmore : MoreVerbose 4 args args' :=
    .join (by decide) (.verbose (.same ['d'])) <|
      .keep (by decide) <| .keep (by decide) <| .insert 1 <| .keep (by decide) <|
      .keep (by decide) <| .keep (by decide) <| .insert 0 (.same [])
  have h : parse args = .ok o := by decide +kernel
  have h' : parse args' = .ok { o with verbosity := 4 } := by decide +kernel
  have hrun : run args files = .ok ⟨1, "", error⟩ := by decide +kernel
  have hlog : (report o (files o.input)).log = [(Notice.arguments "f" 7 ["A"]).record,
      (Notice.failed (.unreadable "f" .notFound)).record] := by
    decide +kernel
  obtain ⟨⟨exit, stdout, hquiet, hloud⟩, -, -, -, hfree⟩ :=
    run_verbosity_only_filters_log args args' 4 o _ files hmore h h'
  have hsame := Except.ok.inj (hquiet.symm.trans hrun)
  obtain rfl : exit = 1 := congrArg Output.exit hsame
  obtain rfl : stdout = "" := congrArg Output.stdout hsame
  rw [hlog] at hloud
  refine ⟨hmore, h, h', hrun, hloud.trans (by decide +kernel), ?_⟩
  refine (hfree [] args start 2 rfl rfl rfl).trans ?_
  rw [List.nil_append, h]
  rfl

/-- Behind an option that waits for its value a flag takes the value away. So with one more flag
arguments can be refused that were accepted, since the value is now a second input, and accepted
that were refused, since it is the only one. -/
theorem run_refused_by_verbose_flag :
    let files : String → Except ReadFault ByteArray := fun _ => .ok "return".toUTF8
    (MoreVerbose 1 ["-t", "A", "f"] ["-t", "-v", "A", "f"] ∧
      run ["-t", "A", "f"] files = .ok ⟨0, "return\n", ""⟩ ∧
      run ["-t", "-v", "A", "f"] files = .error (.extraInput "f")) ∧
      MoreVerbose 1 ["-t", "f", "-t", "A"] ["-t", "-v", "f", "-t", "A"] ∧
      run ["-t", "f", "-t", "A"] files = .error .missingInput ∧
      run ["-t", "-v", "f", "-t", "A"] files = .ok ⟨0, "return\n", ""⟩ := by
  intro files
  have hpass : ∀ verbosity : Nat,
      Passes ⟨"f", none, ["A"], verbosity, false⟩ (files "f") 1 "return" := by
    have hone : Numeral.readWord "1" = .ok 1 := by decide +kernel
    have hbody : (assemble "return" 1).1 = .ok () := by decide +kernel
    exact fun verbosity => ⟨hone, rfl, hbody⟩
  have horder : (typeTable ["A"]).emissionOrder = _ := emissionOrder_typeTable (by decide +kernel)
  have hfirst : parse ["-t", "A", "f"] = .ok ⟨"f", none, ["A"], 0, false⟩ := by decide +kernel
  have hsecond : parse ["-t", "-v", "f", "-t", "A"] = .ok ⟨"f", none, ["A"], 1, false⟩ := by
    decide +kernel
  refine ⟨⟨.keep (by decide) (.insert 0 (.same _)), ?_, ?_⟩,
    .keep (by decide) (.insert 0 (.same _)), ?_, ?_⟩
  · rw [run_of_parse hfirst, report_of_passes (hpass 0) horder]
    decide +kernel
  · rw [run, show parse _ = .error (.refused (.extraInput "f")) by decide +kernel]
  · rw [run, show parse _ = .error (.refused .missingInput) by decide +kernel]
  · rw [run_of_parse hsecond, report_of_passes (hpass 1) horder]
    decide +kernel

end WasmAssembly.Command
