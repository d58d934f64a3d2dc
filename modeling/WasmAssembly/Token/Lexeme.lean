/-!
# Tokens of a function body

Space, tab, line feed and carriage return stand between tokens; every other
character belongs to one. A lexeme keeps where its token begins in the UTF-8
form of the text, so that a token is also a range of bytes.
-/

set_option autoImplicit false

namespace WasmAssembly

def isDelimiter (c : Char) : Bool :=
  c == ' ' || c == '\t' || c == '\n' || c == '\r'

def byteLength (cs : List Char) : Nat := cs.foldr (fun c size => c.utf8Size + size) 0

structure Lexeme where
  start : Nat
  word : List Char
  deriving DecidableEq, Repr

namespace Lexeme

def stop (l : Lexeme) : Nat := l.start + byteLength l.word

def text (l : Lexeme) : String := String.ofList l.word

/-- The lexeme that ends here, if any character was gathered since the last
delimiter. The gathered characters stand in reverse. -/
def close (start : Nat) (gathered : List Char) : List Lexeme :=
  if gathered.isEmpty then [] else [⟨start, gathered.reverse⟩]

def scan : Nat → List Char → List Char → List Lexeme
  | start, gathered, [] => close start gathered
  | start, gathered, c :: cs =>
    if isDelimiter c then
      close start gathered ++ scan (start + byteLength gathered + c.utf8Size) [] cs
    else scan start (c :: gathered) cs

end Lexeme

def lexemes (text : String) : List Lexeme := Lexeme.scan 0 [] text.toList

def tokenize (text : String) : List String := (lexemes text).map Lexeme.text

end WasmAssembly
