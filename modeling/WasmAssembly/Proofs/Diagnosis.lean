import Mathlib.Tactic.Common
import WasmAssembly.Proofs.Grammar
import WasmAssembly.Proofs.Numbering

/-!
# How a run ends

A run goes through three stages that can fail: the line number, the file and the
body. Either all of them pass, and the run succeeds without a complaint, or the
first that fails is reported, as the one error and the last thing in the log. The
types come after these stages and never fail.
-/

set_option autoImplicit false

namespace WasmAssembly.Command

structure Passes (o : Options) (file : Except ReadFault ByteArray) (line : Nat) (text : String) :
    Prop where
  numbered : Numeral.readWord (o.line.getD "1") = .ok line
  readable : file = .ok text.toUTF8
  assembled : (assemble text line).1 = .ok ()

/-- The first stage of a run that fails, with all before it passed, and the message about it. A
file fails that cannot be read or whose bytes are no UTF-8. -/
inductive FirstFailure (o : Options) (file : Except ReadFault ByteArray) : String → Prop where
  | line {value : String} {cause : NumeralFault} (given : o.line = some value)
      (bad : Numeral.readWord value = .error cause) :
      FirstFailure o file ("fatal: invalid line number `" ++ value ++ "`: " ++ cause.message)
  | file {line : Nat} {cause : ReadFault}
      (numbered : Numeral.readWord (o.line.getD "1") = .ok line) (bad : file = .error cause) :
      FirstFailure o file
        ("fatal: unable to read input file `" ++ o.input ++ "`: " ++ cause.message)
  | encoding {line : Nat} {bytes : ByteArray}
      (numbered : Numeral.readWord (o.line.getD "1") = .ok line) (present : file = .ok bytes)
      (bad : ¬ bytes.IsValidUTF8) :
      FirstFailure o file ("fatal: unable to read input file `" ++ o.input ++
        "`: stream did not contain valid UTF-8")
  | body {line : Nat} {text : String} {fault : Fault}
      (numbered : Numeral.readWord (o.line.getD "1") = .ok line)
      (readable : file = .ok text.toUTF8) (bad : (assemble text line).1 = .error ⟨line, fault⟩) :
      FirstFailure o file (o.input ++ ": line " ++ line.repr ++ ": " ++ fault.message)

def bodyLog (o : Options) (line : Nat) (a : Assembly Listing) : List Log.Record :=
  [(Notice.arguments o.input line o.types).record] ++ a.trace.toList.map Trace.record

def passedLog (o : Options) (line : Nat) (a : Assembly Listing) : List Log.Record :=
  bodyLog o line a ++ [(Notice.assembled a.state.toList.length o.input).record] ++
    (typeEvents o.types).map TypeEvent.record

variable {o : Options} {file : Except ReadFault ByteArray} {line : Nat} {text message : String}

theorem run_of_parse {args : List String} (h : parse args = .ok o)
    (files : String → Except ReadFault ByteArray) :
    run args files = .ok ⟨(report o (files o.input)).exit, (report o (files o.input)).stdout,
      lines ((shown o.verbosity (report o (files o.input)).log).map Log.Record.text)⟩ := by
  rw [run, h]

theorem Passes.of_line_eq {p : Options} (h : Passes o file line text) (hline : p.line = o.line) :
    Passes p file line text where
  numbered := by
    rw [hline]
    exact h.numbered
  readable := h.readable
  assembled := h.assembled

theorem exists_given_of_error {cause : NumeralFault}
    (h : Numeral.readWord (o.line.getD "1") = .error cause) :
    ∃ value, o.line = some value ∧ Numeral.readWord value = .error cause := by
  have hone : Numeral.readWord "1" = .ok 1 := by decide +kernel
  cases hgiven : o.line with
  | some value =>
    rw [hgiven] at h
    exact ⟨value, rfl, h⟩
  | none =>
    rw [hgiven] at h
    cases hone.symm.trans h

theorem passes_or_fails (o : Options) (file : Except ReadFault ByteArray) :
    (∃ line text, Passes o file line text) ∨ ∃ message, FirstFailure o file message := by
  cases hline : Numeral.readWord (o.line.getD "1") with
  | error cause =>
    obtain ⟨value, hgiven, hvalue⟩ := exists_given_of_error hline
    exact .inr ⟨_, .line hgiven hvalue⟩
  | ok line =>
    cases hfile : file with
    | error cause => exact .inr ⟨_, .file hline rfl⟩
    | ok bytes =>
      cases hdecode : decode bytes with
      | error cause => exact .inr ⟨_, .encoding hline rfl (decode_eq_error_iff.mp hdecode).1⟩
      | ok text =>
        obtain rfl := decode_eq_ok_iff.mp hdecode
        cases hbody : (assemble text line).1 with
        | ok _ => exact .inl ⟨line, text, hline, rfl, hbody⟩
        | error diagnostic =>
          obtain rfl : diagnostic.line = line := (exists_obstacle_of_error hbody).1
          exact .inr ⟨_, .body hline rfl hbody⟩

theorem bind_decode_of_ok (h : file = .ok text.toUTF8) : file.bind decode = .ok text := by
  rw [h]
  exact decode_eq_ok_iff.mpr rfl

theorem report_of_text (numbered : Numeral.readWord (o.line.getD "1") = .ok line)
    (readable : file = .ok text.toUTF8) :
    report o file =
      match (assemble text line).1, (typeTable o.types).emissionOrder with
      | .error diagnostic, _ =>
        .failed (bodyLog o line (assemble text line).2) (.body o.input diagnostic)
      | .ok _, .error cause =>
        .failed (passedLog o line (assemble text line).2) (.types cause)
      | .ok _, .ok types =>
        ⟨0, if o.grid then grids (assemble text line).2.state.toList types
            else listing (assemble text line).2.state.toList,
          passedLog o line (assemble text line).2⟩ := by
  rcases ha : assemble text line with ⟨result, a⟩
  simp only [report, numbered, bind_decode_of_ok readable, ha]
  cases result with
  | error diagnostic => rfl
  | ok _ => cases (typeTable o.types).emissionOrder <;> rfl

theorem report_of_passes (h : Passes o file line text) {types : List StructType}
    (ht : (typeTable o.types).emissionOrder = .ok types) :
    report o file =
      ⟨0, if o.grid then grids (assemble text line).2.state.toList types
          else listing (assemble text line).2.state.toList,
        passedLog o line (assemble text line).2⟩ := by
  rw [report_of_text h.numbered h.readable, h.assembled, ht]

theorem report_of_unreadable {cause : ReadFault}
    (numbered : Numeral.readWord (o.line.getD "1") = .ok line)
    (bad : file.bind decode = .error cause) :
    report o file = .failed [(Notice.arguments o.input line o.types).record]
      (.unreadable o.input cause) := by
  simp only [report, numbered, bad]

theorem message_notText (path : String) :
    (Failure.unreadable path .notText).message =
      "fatal: unable to read input file `" ++ path ++ "`: stream did not contain valid UTF-8" := by
  have hjoin : "`: " ++ ReadFault.notText.message = "`: stream did not contain valid UTF-8" := by
    decide +kernel
  exact String.append_assoc.trans (congrArg (_ ++ ·) hjoin)

theorem message_body (path : String) (line : Nat) (fault : Fault) :
    (Failure.body path ⟨line, fault⟩).message =
      path ++ ": line " ++ line.repr ++ ": " ++ fault.message := by
  have hjoin : ": " ++ "line " = ": line " := by decide +kernel
  show path ++ ": " ++ ("line " ++ line.repr ++ ": " ++ fault.message) = _
  simp only [← hjoin, String.append_assoc]

theorem report_of_failure (h : FirstFailure o file message) :
    ∃ log failure, report o file = .failed log failure ∧ failure.message = message ∧
      ∀ record ∈ log, record.level ≠ .error ∧ record.origin ≠ .typeTable := by
  cases h with
  | @line value cause given bad =>
    refine ⟨[], .line value cause, ?_, rfl, by simp⟩
    simp only [report, given, Option.getD_some, bad]
  | @file line cause numbered bad =>
    have hdecode : file.bind decode = .error cause := by
      rw [bad]
      rfl
    refine ⟨_, _, report_of_unreadable numbered hdecode, rfl, ?_⟩
    simp [Notice.record, Notice.level]
  | @encoding line bytes numbered present bad =>
    have hdecode : file.bind decode = .error .notText := by
      rw [present]
      exact decode_eq_error_iff.mpr ⟨bad, rfl⟩
    refine ⟨_, _, report_of_unreadable numbered hdecode, message_notText o.input, ?_⟩
    simp [Notice.record, Notice.level]
  | body numbered readable bad =>
    refine ⟨_, _, by rw [report_of_text numbered readable, bad], message_body _ _ _, ?_⟩
    simp [bodyLog, Notice.record, Notice.level, Trace.record]

theorem exit_of_failure (h : FirstFailure o file message) : (report o file).exit = 1 := by
  obtain ⟨log, failure, hreport, -⟩ := report_of_failure h
  rw [hreport]
  rfl

theorem FirstFailure.unique {message' : String} (h : FirstFailure o file message)
    (h' : FirstFailure o file message') : message = message' := by
  obtain ⟨log, failure, hreport, rfl, -⟩ := report_of_failure h
  obtain ⟨log', failure', hreport', rfl, -⟩ := report_of_failure h'
  have hlogs : log ++ [(Notice.failed failure).record] =
      log' ++ [(Notice.failed failure').record] :=
    congrArg Report.log (hreport.symm.trans hreport')
  exact congrArg Log.Record.message (List.append_singleton_inj.mp hlogs).2

theorem passes_of_exit_zero (h : (report o file).exit = 0) :
    ∃ line text types, Passes o file line text ∧
      (typeTable o.types).emissionOrder = .ok types := by
  rcases passes_or_fails o file with ⟨line, text, hp⟩ | ⟨message, hf⟩
  · cases ht : (typeTable o.types).emissionOrder with
    | ok types => exact ⟨line, text, types, hp, rfl⟩
    | error cause =>
      rw [report_of_text hp.numbered hp.readable, hp.assembled, ht] at h
      cases h
  · rw [exit_of_failure hf] at h
    cases h

theorem level_passedLog {a : Assembly Listing} {record : Log.Record}
    (h : record ∈ passedLog o line a) : record.level ≠ .error ∧ record.level ≠ .warn := by
  simp only [passedLog, bodyLog, List.mem_append, List.mem_singleton, List.mem_map] at h
  rcases h with ((rfl | ⟨trace, -, rfl⟩) | rfl) | ⟨event, he, rfl⟩
  · simp [Notice.record, Notice.level]
  · simp [Trace.record]
  · simp [Notice.record, Notice.level]
  · simp [TypeEvent.record, level_typeEvents he]

theorem shown_concat_error (verbosity : Nat) (log : List Log.Record) {record : Log.Record}
    (h : record.level = .error) :
    shown verbosity (log ++ [record]) = shown verbosity log ++ [record] := by
  have hwithin : record.within (threshold verbosity) = true := by
    rw [Log.Record.within, h]
    cases threshold verbosity <;> rfl
  simp [shown, hwithin]

theorem shown_last_error {log : List Log.Record} (hlog : ∀ r ∈ log, r.level ≠ .error)
    {record : Log.Record} (h : record.level = .error) (verbosity : Nat) :
    ((shown verbosity (log ++ [record])).filter fun r => r.level = .error) = [record] ∧
      (shown verbosity (log ++ [record])).getLast? = some record := by
  have hnone : ((shown verbosity log).filter fun r => r.level = .error) = [] := by
    rw [List.filter_eq_nil_iff]
    intro r hr
    simpa using hlog r (List.mem_of_mem_filter hr)
  rw [shown_concat_error verbosity log h]
  constructor
  · rw [List.filter_append, hnone]
    simp [h]
  · exact List.getLast?_concat

theorem shown_zero_level {log : List Log.Record} {record : Log.Record}
    (h : record ∈ shown 0 log) : record.level = .error := by
  have hwithin := (List.mem_filter.mp h).2
  obtain ⟨origin, level, message⟩ := record
  cases level with
  | error => rfl
  | _ => cases hwithin

/-- How a run that the arguments ask for ends. It succeeds if the line number can be
read, the bytes of the file are the UTF-8 of a text and the text is a body. Otherwise it exits
with 1, prints nothing, and whatever the verbosity shows one error, at the end, with the message
about the first of the three that fails; no type was named before. A run that succeeds shows
no error and no warning. The types are never the reason of a failure. -/
theorem run_reports_first_failure (args : List String) (o : Options)
    (files : String → Except ReadFault ByteArray) (hargs : parse args = .ok o)
    (hnames : o.types.eraseDups.length < 4294967296) :
    let r := report o (files o.input)
    run args files =
        .ok ⟨r.exit, r.stdout, lines ((shown o.verbosity r.log).map Log.Record.text)⟩ ∧
      (r.exit = 0 ↔ ∃ (line : Nat) (text : String),
        Numeral.readWord (o.line.getD "1") = .ok line ∧
        files o.input = .ok text.toUTF8 ∧ (assemble text line).1 = .ok ()) ∧
      (r.exit ≠ 0 → r.exit = 1 ∧ r.stdout = "" ∧
        (∀ record ∈ r.log, record.origin ≠ .typeTable) ∧
        ∃ (message : String) (error : Log.Record), FirstFailure o (files o.input) message ∧
          error.level = .error ∧ error.text = "[watasm][ERROR] " ++ message ∧
          ∀ verbosity : Nat,
            ((shown verbosity r.log).filter fun record => record.level = .error) = [error] ∧
            (shown verbosity r.log).getLast? = some error) ∧
      (r.exit = 0 → ∀ record ∈ r.log, record.level ≠ .error ∧ record.level ≠ .warn) ∧
      ∃ order, (typeTable o.types).emissionOrder = .ok order := by
  intro r
  have horder := emissionOrder_typeTable hnames
  refine ⟨run_of_parse hargs files, ?_, ?_, ?_, _, horder⟩
  · constructor
    · intro hzero
      obtain ⟨line, text, -, hp, -⟩ := passes_of_exit_zero hzero
      exact ⟨line, text, hp.numbered, hp.readable, hp.assembled⟩
    · rintro ⟨line, text, numbered, readable, assembled⟩
      have hr : r = _ := report_of_passes ⟨numbered, readable, assembled⟩ horder
      rw [hr]
  · intro hexit
    rcases passes_or_fails o (files o.input) with ⟨line, text, hp⟩ | ⟨message, hf⟩
    · have hr : r = _ := report_of_passes hp horder
      rw [hr] at hexit
      exact absurd rfl hexit
    · obtain ⟨log, failure, hreport, rfl, hlog⟩ := report_of_failure hf
      have hr : r = .failed log failure := hreport
      rw [hr]
      refine ⟨rfl, rfl, ?_, _, (Notice.failed failure).record, hf, rfl, rfl,
        shown_last_error (fun record h => (hlog record h).1) rfl⟩
      intro record hrecord
      rcases List.mem_append.mp hrecord with h | h
      · exact (hlog record h).2
      · rw [List.mem_singleton.mp h]
        simp [Notice.record]
  · intro hzero record hrecord
    obtain ⟨line, text, types, hp, ht⟩ := passes_of_exit_zero hzero
    have hr : r = _ := report_of_passes hp ht
    rw [hr] at hrecord
    exact level_passedLog hrecord

/-- What is shown of each failure. A bad line number is reported though the file is missing too,
and types are named. With a good one, and a body in the file, the run succeeds. -/
theorem run_reports_first_failure_each_stage :
    let missing : String → Except ReadFault ByteArray := fun _ => .error .notFound
    let holding : ByteArray → String → Except ReadFault ByteArray := fun bytes _ => .ok bytes
    run ["-t", "A", "-l", "1x", "--type=B", "gone.wat"] missing =
        .ok ⟨1, "", "[watasm][ERROR] fatal: invalid line number `1x`: " ++
          "invalid digit found in string\n"⟩ ∧
      run ["gone.wat", "-l7"] missing =
        .ok ⟨1, "", "[watasm][ERROR] fatal: unable to read input file `gone.wat`: " ++
          "No such file or directory (os error 2)\n"⟩ ∧
      run ["in.wat"] (holding ⟨#[0x72, 0xff]⟩) =
        .ok ⟨1, "", "[watasm][ERROR] fatal: unable to read input file `in.wat`: " ++
          "stream did not contain valid UTF-8\n"⟩ ∧
      run ["-d", "in.wat", "--line=7"] (holding "return nop".toUTF8) =
        .ok ⟨1, "", "[watasm][ERROR] in.wat: line 7: unknown WASM token: nop\n"⟩ ∧
      ∃ out, run ["-t", "A", "in.wat", "-vv"] (holding "return".toUTF8) = .ok out ∧
        out.exit = 0 := by
  intro missing holding
  have hfails : ∀ (args : List String) (o : Options) (message : String)
      (files : String → Except ReadFault ByteArray), parse args = .ok o → o.verbosity = 0 →
      o.types.eraseDups.length < 4294967296 → FirstFailure o (files o.input) message →
        run args files = .ok ⟨1, "", "[watasm][ERROR] " ++ message ++ "\n"⟩ := by
    intro args o message files hargs hquiet hnames hfirst
    obtain ⟨hrun, -, hfailed, -⟩ := run_reports_first_failure args o files hargs hnames
    have hexit : (report o (files o.input)).exit ≠ 0 := by
      rw [exit_of_failure hfirst]
      decide
    obtain ⟨hone, hempty, -, message', error, hfirst', -, htext, hshown⟩ := hfailed hexit
    obtain rfl := hfirst.unique hfirst'
    have herrors : shown 0 (report o (files o.input)).log = [error] := by
      rw [← (hshown 0).1]
      exact (List.filter_eq_self.mpr fun record h => by simp [shown_zero_level h]).symm
    rw [hrun, hone, hempty, hquiet, herrors, List.map_singleton, htext]
    simp [lines]
  have hline : Numeral.readWord "1x" = .error .invalidDigit := by decide +kernel
  have hseven : Numeral.readWord "7" = .ok 7 := by decide +kernel
  have hone : Numeral.readWord "1" = .ok 1 := by decide +kernel
  have hbody : (assemble "return nop" 7).1 = .error ⟨7, .unknownToken "nop"⟩ := by decide +kernel
  refine ⟨?_, ?_, ?_, ?_, ?_⟩
  · refine (hfails _ ⟨"gone.wat", some "1x", ["A", "B"], 0, false⟩ _ missing (by decide +kernel) rfl
      (by decide +kernel) (.line rfl hline)).trans ?_
    decide +kernel
  · refine (hfails _ ⟨"gone.wat", some "7", [], 0, false⟩ _ missing (by decide +kernel) rfl
      (by decide +kernel) (.file hseven rfl)).trans ?_
    decide +kernel
  · refine (hfails _ ⟨"in.wat", none, [], 0, false⟩ _ _ (by decide +kernel) rfl
      (by decide +kernel) (.encoding hone rfl (by decide +kernel))).trans ?_
    decide +kernel
  · refine (hfails _ ⟨"in.wat", some "7", [], 0, true⟩ _ _ (by decide +kernel) rfl
      (by decide +kernel) (.body hseven rfl hbody)).trans ?_
    decide +kernel
  · have hargs : parse ["-t", "A", "in.wat", "-vv"] = .ok ⟨"in.wat", none, ["A"], 2, false⟩ := by
      decide +kernel
    obtain ⟨hrun, hzero, -⟩ := run_reports_first_failure _ _ (holding "return".toUTF8) hargs
      (by decide +kernel)
    exact ⟨_, hrun, hzero.mpr ⟨1, "return", hone, rfl, by decide +kernel⟩⟩

end WasmAssembly.Command
