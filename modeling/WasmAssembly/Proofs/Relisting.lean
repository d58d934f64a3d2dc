import WasmAssembly.Proofs.Diagnosis
import WasmAssembly.Proofs.Normalising

/-!
# Listings as input

The listing that a run prints can be put in the place of its input. Nothing that
a run shows tells the two apart: the instructions are the same and stand at the same
places, and the assembler leaves the same trace.
-/

set_option autoImplicit false

namespace WasmAssembly

theorem assemble_body {text : String} {body : Body} (h : body.tokens = tokenize text)
    (line : Nat) :
    assemble text line =
      (Builder.listing.handOver (body.instructions line 0)
        ⟨#[], #[.start body.tokens.length line]⟩).map
          (fun result => (Builder.settle (.ok ()) result).mapError (⟨line, ·⟩)) id := by
  have ht : body.tokens ++ [] = tokenize text := by rw [List.append_nil, h]
  rw [assemble, Builder.listing.assemble_eq_handOver line ht .done, h]
  rfl

theorem assemble_listing {text : String} {line : Nat} (h : (assemble text line).1 = .ok ()) :
    assemble (Command.listing (assemble text line).2.state.toList) line = assemble text line := by
  obtain ⟨body, hbody⟩ := exists_body_of_ok h
  have hstate : (assemble text line).2.state = (body.instructions line 0).toArray :=
    (listing_assemble_body hbody line #[]).2
  have hprinted : body.normal.tokens =
      tokenize (Command.listing (assemble text line).2.state.toList) := by
    rw [hstate]
    exact (tokenize_listing line 0 body).symm
  rw [assemble_body hprinted, Body.instructions_normal, Body.length_tokens_normal,
    ← assemble_body hbody]

namespace Command

variable {o : Options} {text : String} {line : Nat}

theorem report_relisted (h : Passes o (.ok text.toUTF8) line text) :
    report o (.ok (listing (assemble text line).2.state.toList).toUTF8) =
      report o (.ok text.toUTF8) := by
  rw [report_of_text h.numbered rfl, report_of_text h.numbered rfl, assemble_listing h.assembled]

/-- The listing of a run is a fixed point of the command. Take arguments with which a file
is assembled, and others for the same file with the same line and the same types that ask
for no grid. These print a listing. Where the listing is put in the place of the file, the
first arguments give the same exit status, the same output and the same log as before. -/
theorem run_relisted (args plain : List String) (o p : Options)
    (files : String → Except ReadFault ByteArray) (text : String) (out : Output)
    (hargs : parse args = .ok o) (hplain : parse plain = .ok p) (hgrid : p.grid = false)
    (hline : p.line = o.line) (htypes : p.types = o.types)
    (hfile : files o.input = .ok text.toUTF8) (hsame : files p.input = .ok text.toUTF8)
    (hout : run args files = .ok out) (hexit : out.exit = 0) :
    ∃ listed : Output, run plain files = .ok listed ∧ listed.exit = 0 ∧
      ∀ relisted : String → Except ReadFault ByteArray,
        relisted o.input = .ok listed.stdout.toUTF8 →
          run args relisted = .ok out ∧
          (report o (relisted o.input)).log = (report o (files o.input)).log := by
  rw [run_of_parse hargs] at hout
  have hzero : (report o (files o.input)).exit = 0 := by
    cases hout
    exact hexit
  obtain ⟨line, text', types, hpass, horder⟩ := passes_of_exit_zero hzero
  rw [hfile] at hpass
  obtain rfl : text = text' := String.toByteArray_inj.mp (Except.ok.inj hpass.readable)
  have hplainPass : Passes p (files p.input) line text := by
    rw [hsame]
    exact hpass.of_line_eq hline
  have hplainOrder : (typeTable p.types).emissionOrder = .ok types := by
    rw [htypes]
    exact horder
  have hreport := report_of_passes hplainPass hplainOrder
  refine ⟨_, run_of_parse hplain files, by rw [hreport], ?_⟩
  intro relisted hrelisted
  rw [hreport, hgrid] at hrelisted
  have hsameReport : report o (relisted o.input) = report o (files o.input) := by
    rw [hrelisted, hfile]
    exact report_relisted hpass
  rw [run_of_parse hargs, hsameReport]
  exact ⟨hout, rfl⟩

theorem run_relisted_signs :
    let o : Options := ⟨"in.wat", some "3", ["A"], 3, true⟩
    let p : Options := ⟨"in.wat", some "3", ["A"], 0, false⟩
    let args := ["-dvvv", "-l", "3", "-t", "A", "in.wat"]
    let plain := ["in.wat", "-tA", "--line=3"]
    let text := "\ti32.const +007 local.set\r\n-0  return"
    let printed := "i32.const 7\nlocal.set 0\nreturn\n"
    let files : String → Except ReadFault ByteArray := fun _ => .ok text.toUTF8
    let relisted : String → Except ReadFault ByteArray := fun _ => .ok printed.toUTF8
    parse args = .ok o ∧ parse plain = .ok p ∧ run plain files = .ok ⟨0, printed, ""⟩ ∧
      ∃ out, run args files = .ok out ∧ out.exit = 0 ∧ run args relisted = .ok out ∧
        (report o (relisted o.input)).log = (report o (files o.input)).log := by
  intro o p args plain text printed files relisted
  have hargs : parse args = .ok o := by decide +kernel
  have hplain : parse plain = .ok p := by decide +kernel
  have hpass : Passes p (files p.input) 3 text := ⟨by decide +kernel, rfl, by decide +kernel⟩
  have hprinted : run plain files = .ok ⟨0, printed, ""⟩ := by
    rw [run_of_parse hplain,
      report_of_passes hpass (emissionOrder_typeTable (by decide +kernel))]
    decide +kernel
  have hexit : (report o (files o.input)).exit = 0 := by
    have hgridPass : Passes o (files o.input) 3 text := hpass.of_line_eq rfl
    rw [report_of_passes hgridPass (emissionOrder_typeTable (by decide +kernel))]
  have hrun := run_of_parse hargs files
  obtain ⟨listed, hlisted, -, hsame⟩ := run_relisted args plain o p files text _ hargs hplain rfl
    rfl rfl rfl rfl hrun hexit
  obtain rfl : listed = ⟨0, printed, ""⟩ := Except.ok.inj (hlisted.symm.trans hprinted)
  obtain ⟨hagain, hlog⟩ := hsame relisted rfl
  exact ⟨hargs, hplain, hprinted, _, hrun, hexit, hagain, hlog⟩

end Command

end WasmAssembly
