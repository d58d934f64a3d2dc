import WasmAssembly.Assembler.Basic
import WasmAssembly.Command.Arguments
import WasmAssembly.Command.Files
import WasmAssembly.Text.Basic
import WasmAssembly.TypeTable.Request

/-!
# What a run of the command prints

A run reads the line number, then the file, then the body, and stops at the
first of them that is faulty. It then lists the instructions and the types,
which are placed in the order in which they are first named. Every run keeps
a log; how much of it is shown depends on the verbosity alone.
-/

set_option autoImplicit false

namespace WasmAssembly.Command

inductive Failure where
  | line (value : String) (cause : NumeralFault)
  | unreadable (path : String) (cause : ReadFault)
  | body (path : String) (diagnostic : Diagnostic)
  | types (cause : OrderFault)
  deriving DecidableEq, Repr

def Failure.message : Failure → String
  | .line value cause => "fatal: invalid line number `" ++ value ++ "`: " ++ cause.message
  | .unreadable path cause =>
    "fatal: unable to read input file `" ++ path ++ "`: " ++ cause.message
  | .body path diagnostic => path ++ ": " ++ diagnostic.message
  | .types cause => "fatal: " ++ cause.message

inductive Notice where
  | arguments (input : String) (line : Nat) (types : List String)
  | assembled (count : Nat) (input : String)
  | failed (failure : Failure)
  deriving DecidableEq, Repr

namespace Notice

def level : Notice → Log.Level
  | .arguments .. => .debug
  | .assembled .. => .info
  | .failed _ => .error

def message : Notice → String
  | .arguments input line types =>
    "Arguments:\n\tInfile: " ++ input ++ "\n\tLine: " ++ line.repr ++ "\n\tTypes: " ++
      Quoted.list types
  | .assembled count input =>
    "assembled " ++ count.repr ++ " instruction(s) from `" ++ input ++ "`"
  | .failed failure => failure.message

def record (n : Notice) : Log.Record := ⟨.command, n.level, n.message⟩

end Notice

def lines (texts : List String) : String := String.join (texts.map (· ++ "\n"))

def address (n : Nat) : String :=
  let digits := (Nat.toDigits 16 n).map Char.toUpper
  "0x" ++ String.ofList (List.replicate (4 - digits.length) '0' ++ digits)

def instructionRow (index : Nat) (i : Instruction) : List String :=
  [address index ++ ":", i.text, "@", i.line.repr ++ ":" ++ i.codePos.repr]

def typeRow (s : StructType) : List String :=
  ["type[" ++ s.index.toNat.repr ++ "]", s.text]

def listing (instructions : List Instruction) : String := lines (instructions.map Instruction.text)

def grids (instructions : List Instruction) (types : List StructType) : String :=
  Grid.render (instructions.mapIdx instructionRow) ++ "\n" ++
    if types.isEmpty then "" else Grid.render (types.map typeRow) ++ "\n"

def interning (names : List String) : List TypeTable.Request := names.map .intern

def placing (t : TypeTable) : List TypeTable.Request :=
  t.refs.map fun ref => .place ref (UInt32.ofNat ref)

def typeTable (names : List String) : TypeTable :=
  let interned := TypeTable.empty.run (interning names)
  interned.run (placing interned)

def typeEvents (names : List String) : List TypeEvent :=
  let interned := TypeTable.empty.run (interning names)
  TypeTable.empty.events (interning names) ++ interned.events (placing interned)

structure Report where
  exit : Nat
  stdout : String
  log : List Log.Record
  deriving DecidableEq, Repr

def Report.failed (log : List Log.Record) (failure : Failure) : Report :=
  ⟨1, "", log ++ [(Notice.failed failure).record]⟩

def report (o : Options) (file : Except ReadFault ByteArray) : Report :=
  match Numeral.readWord (o.line.getD "1") with
  | .error cause => .failed [] (.line (o.line.getD "") cause)
  | .ok line =>
    let log := [(Notice.arguments o.input line o.types).record]
    match file.bind decode with
    | .error cause => .failed log (.unreadable o.input cause)
    | .ok text =>
      let (result, assembly) := assemble text line
      let log := log ++ assembly.trace.toList.map Trace.record
      match result with
      | .error diagnostic => .failed log (.body o.input diagnostic)
      | .ok _ =>
        let instructions := assembly.state.toList
        let log := log ++ [(Notice.assembled instructions.length o.input).record] ++
          (typeEvents o.types).map TypeEvent.record
        match (typeTable o.types).emissionOrder with
        | .error cause => .failed log (.types cause)
        | .ok types =>
          ⟨0, if o.grid then grids instructions types else listing instructions, log⟩

def threshold : Nat → Log.Level
  | 0 => .error
  | 1 => .warn
  | 2 => .info
  | _ => .debug

def shown (verbosity : Nat) (log : List Log.Record) : List Log.Record :=
  log.filter (Log.Record.within (threshold verbosity))

structure Output where
  exit : Nat
  stdout : String
  stderr : String
  deriving DecidableEq, Repr

def versionText : String := "watasm 0.1.0\n"

def helpText : String :=
  lines ["USAGE:", "    watasm [FLAGS] [OPTIONS] <INPUT>", "", "FLAGS:",
    "    -h, --help       Prints help information",
    "    -d, --show       prints the instruction listing and type table as a grid to STDOUT",
    "    -v               Sets the level of verbosity",
    "    -V, --version    Prints version information", "", "OPTIONS:",
    "    -l, --line <line>       source line the function body comes from, used in diagnostics",
    "    -t, --type <type>...    interns a struct type by name; repeat for more types", "",
    "ARGS:", "    <INPUT>    Sets the file holding the function body"]

/-- Runs the command on its arguments, with `files` telling what each path holds. -/
def run (args : List String) (files : String → Except ReadFault ByteArray) :
    Except UsageFault Output :=
  match parse args with
  | .error (.refused fault) => .error fault
  | .error .version => .ok ⟨0, versionText, ""⟩
  | .error .help => .ok ⟨0, helpText, ""⟩
  | .ok o =>
    let r := report o (files o.input)
    .ok ⟨r.exit, r.stdout, lines ((shown o.verbosity r.log).map Log.Record.text)⟩

end WasmAssembly.Command
