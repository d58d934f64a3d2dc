/-!
# Arguments of the command

The command takes one input file, flags and options. An option's value
follows it as the next argument or is attached to it, and letters of flags
may share one dash. Arguments are read from left to right; a request for the
version or for help takes effect where it stands.
-/

set_option autoImplicit false

namespace WasmAssembly.Command

inductive Flag where
  | verbose
  | grid
  | version
  | help
  deriving DecidableEq, Repr

inductive Setting where
  | line
  | type
  deriving DecidableEq, Repr

structure Options where
  input : String
  line : Option String
  types : List String
  verbosity : Nat
  grid : Bool
  deriving DecidableEq, Repr

inductive UsageFault where
  | unknownOption (name : String)
  | missingInput
  | extraInput (argument : String)
  | missingValue (setting : Setting)
  | repeatedLine
  | repeatedGrid
  deriving DecidableEq, Repr

def Setting.text : Setting → String
  | .line => "--line <line>"
  | .type => "--type <type>..."

def UsageFault.message : UsageFault → String
  | .unknownOption name => "error: unknown argument `" ++ name ++ "`"
  | .missingInput => "error: the argument <INPUT> is required"
  | .extraInput argument => "error: more than one <INPUT>: `" ++ argument ++ "`"
  | .missingValue setting => "error: the argument " ++ setting.text ++ " requires a value"
  | .repeatedLine => "error: the argument --line <line> was given more than once"
  | .repeatedGrid => "error: the argument --show was given more than once"

inductive Halt where
  | refused (fault : UsageFault)
  | version
  | help
  deriving DecidableEq, Repr

namespace Arguments

inductive Name where
  | flag (flag : Flag)
  | setting (setting : Setting)
  deriving DecidableEq, Repr

def ofLetter? : Char → Option Name
  | 'v' => some (.flag .verbose)
  | 'd' => some (.flag .grid)
  | 'V' => some (.flag .version)
  | 'h' => some (.flag .help)
  | 'l' => some (.setting .line)
  | 't' => some (.setting .type)
  | _ => none

def ofWord? : String → Option Name
  | "show" => some (.flag .grid)
  | "s" => some (.flag .grid)
  | "version" => some (.flag .version)
  | "help" => some (.flag .help)
  | "line" => some (.setting .line)
  | "type" => some (.setting .type)
  | _ => none

structure Uses where
  named : Nat
  values : List String
  deriving DecidableEq, Repr

/-- What has been read so far. After a lone double dash, which makes the rest
literal, nothing is an option any more. -/
structure Tally where
  input : Option String
  line : Uses
  type : Uses
  verbosity : Nat
  grids : Nat
  awaiting : Option Setting
  literal : Bool
  deriving DecidableEq, Repr

namespace Tally

def start : Tally := ⟨none, ⟨0, []⟩, ⟨0, []⟩, 0, 0, none, false⟩

def mapUses (t : Tally) (f : Uses → Uses) : Setting → Tally
  | .line => { t with line := f t.line }
  | .type => { t with type := f t.type }

def name (t : Tally) (s : Setting) : Tally := t.mapUses (fun u => { u with named := u.named + 1 }) s

def give (t : Tally) (s : Setting) (value : String) : Tally :=
  { t.mapUses (fun u => { u with values := u.values ++ [value] }) s with awaiting := none }

def raise (t : Tally) : Flag → Except Halt Tally
  | .verbose => .ok { t with verbosity := t.verbosity + 1, awaiting := none }
  | .grid => .ok { t with grids := t.grids + 1, awaiting := none }
  | .version => .error .version
  | .help => .error .help

/-- Names a setting, with the text attached to it if there is any. Equals
signs before an attached value do not belong to it. -/
def use (t : Tally) (s : Setting) : Option (List Char) → Tally
  | none => { t.name s with awaiting := some s }
  | some attached => (t.name s).give s (String.ofList (attached.dropWhile (· == '=')))

def letters (t : Tally) : List Char → Except Halt Tally
  | [] => .ok t
  | c :: cs =>
    match ofLetter? c with
    | none => .error (.refused (.unknownOption (String.ofList ['-', c])))
    | some (.setting s) => .ok (t.use s (if cs.isEmpty then none else some cs))
    | some (.flag flag) =>
      match t.raise flag with
      | .error halt => .error halt
      | .ok t => t.letters cs

def word (t : Tally) (cs : List Char) : Except Halt Tally :=
  let name := String.ofList (cs.takeWhile (· != '='))
  let attached := (cs.dropWhile (· != '=')).tail?
  match ofWord? name with
  | none => .error (.refused (.unknownOption name))
  | some (.setting s) => .ok (t.use s attached)
  | some (.flag flag) => t.raise flag

def positional (t : Tally) (argument : String) : Except Halt Tally :=
  match t.input with
  | none => .ok { t with input := some argument }
  | some _ => .error (.refused (.extraInput argument))

def plain (t : Tally) (argument : String) : Except Halt Tally :=
  match t.awaiting with
  | some s => .ok (t.give s argument)
  | none => t.positional argument

def argument (t : Tally) (argument : String) : Except Halt Tally :=
  if t.literal then t.positional argument
  else
    match argument.toList with
    | ['-', '-'] => .ok { t with literal := true }
    | '-' :: '-' :: cs => t.word (cs.dropWhile (· == '-'))
    | '-' :: c :: cs => t.letters (c :: cs)
    | _ => t.plain argument

def arguments (t : Tally) : List String → Except Halt Tally
  | [] => .ok t
  | arg :: args =>
    match t.argument arg with
    | .error halt => .error halt
    | .ok t => t.arguments args

/-- The line and the grid may be asked for once, and a setting that was named
needs a value. -/
def options (t : Tally) : Except UsageFault Options :=
  match t.input with
  | none => .error .missingInput
  | some input =>
    if 0 < t.line.named ∧ t.line.values = [] then .error (.missingValue .line)
    else if 0 < t.type.named ∧ t.type.values = [] then .error (.missingValue .type)
    else if 1 < t.line.named then .error .repeatedLine
    else if 1 < t.grids then .error .repeatedGrid
    else .ok ⟨input, t.line.values.head?, t.type.values, t.verbosity, t.grids == 1⟩

end Tally

end Arguments

def parse (args : List String) : Except Halt Options :=
  match Arguments.Tally.start.arguments args with
  | .error halt => .error halt
  | .ok tally => tally.options.mapError .refused

end WasmAssembly.Command
