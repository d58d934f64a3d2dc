import WasmAssembly.Text.Unprintable

/-!
# Aligned and quoted text

Text is filled up with spaces to a width; text that is wider stays as it is. In a
grid every cell but the last of its row is filled up to the width of its column, and
one more space divides it from the next. Quoted text stands between double quotes, on
one line and in visible characters only.
-/

set_option autoImplicit false

namespace WasmAssembly

def spaces (n : Nat) : String := String.ofList (List.replicate n ' ')

def alignLeft (width : Nat) (text : String) : String := text ++ spaces (width - text.length)

def alignRight (width : Nat) (text : String) : String := spaces (width - text.length) ++ text

namespace Grid

def widen : List Nat → List Nat → List Nat
  | [], widths => widths
  | widths, [] => widths
  | m :: ms, n :: ns => max m n :: widen ms ns

def widths : List (List String) → List Nat
  | [] => []
  | row :: rows => widen (row.map String.length) (widths rows)

def row : List Nat → List String → String
  | _, [] => ""
  | _, [cell] => cell
  | [], cell :: cells => cell ++ " " ++ row [] cells
  | width :: widths, cell :: cells => alignLeft width cell ++ " " ++ row widths cells

def render (rows : List (List String)) : String :=
  let columns := widths rows
  String.join (rows.map fun cells => row columns cells ++ "\n")

end Grid

namespace Quoted

def codePoint (c : Char) : String :=
  "\\u\x7b" ++ String.ofList (Nat.toDigits 16 c.toNat) ++ "\x7d"

def escape (c : Char) : String :=
  match c with
  | '\x00' => "\\0"
  | '\t' => "\\t"
  | '\n' => "\\n"
  | '\r' => "\\r"
  | '"' => "\\\""
  | '\\' => "\\\\"
  | c => if isUnprintable c then codePoint c else c.toString

def quote (text : String) : String := "\"" ++ String.join (text.toList.map escape) ++ "\""

def list (texts : List String) : String :=
  "[" ++ ", ".intercalate (texts.map quote) ++ "]"

end Quoted

end WasmAssembly
