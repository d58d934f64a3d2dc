/-!
# Input files

What can go wrong when the input file is read, and a directory tree in which
paths are looked up.
-/

set_option autoImplicit false

namespace WasmAssembly.Command

inductive ReadFault where
  | notFound
  | isDirectory
  | notDirectory
  | nameTooLong
  | notText
  | failed (reason : String)
  deriving DecidableEq, Repr

def ReadFault.message : ReadFault → String
  | .notFound => "No such file or directory (os error 2)"
  | .isDirectory => "Is a directory (os error 21)"
  | .notDirectory => "Not a directory (os error 20)"
  | .nameTooLong => "File name too long (os error 36)"
  | .notText => "stream did not contain valid UTF-8"
  | .failed reason => reason

def decode (bytes : ByteArray) : Except ReadFault String :=
  match String.fromUTF8? bytes with
  | none => .error .notText
  | some text => .ok text

theorem decode_of_isValidUTF8 {bytes : ByteArray} (h : bytes.IsValidUTF8) :
    decode bytes = .ok (String.fromUTF8 bytes h) := by
  rw [decode, String.fromUTF8?, dif_pos h]

theorem decode_of_not_isValidUTF8 {bytes : ByteArray} (h : ¬ bytes.IsValidUTF8) :
    decode bytes = .error .notText := by
  rw [decode, String.fromUTF8?, dif_neg h]

theorem decode_eq_ok_iff {bytes : ByteArray} {text : String} :
    decode bytes = .ok text ↔ bytes = text.toUTF8 := by
  constructor
  · intro h
    by_cases hvalid : bytes.IsValidUTF8
    · rw [decode_of_isValidUTF8 hvalid] at h
      cases h
      rfl
    · rw [decode_of_not_isValidUTF8 hvalid] at h
      cases h
  · rintro rfl
    exact decode_of_isValidUTF8 text.isValidUTF8

theorem decode_eq_error_iff {bytes : ByteArray} {cause : ReadFault} :
    decode bytes = .error cause ↔ ¬ bytes.IsValidUTF8 ∧ cause = .notText := by
  by_cases hvalid : bytes.IsValidUTF8
  · simp [decode_of_isValidUTF8 hvalid, hvalid]
  · simp [decode_of_not_isValidUTF8 hvalid, hvalid, eq_comm]

inductive Node where
  | file (content : ByteArray)
  | folder

structure FileTree where
  nodes : List (List String × Node)

namespace FileTree

def find? (tree : FileTree) : List String → Option Node
  | [] => some .folder
  | names => tree.nodes.lookup names

inductive Place where
  | inside (names : List String)
  | around

def Place.parent : Place → Place
  | .inside [] => .around
  | .inside names => .inside names.dropLast
  | .around => .around

def at? (tree : FileTree) : Place → Option Node
  | .inside names => tree.find? names
  | .around => some .folder

def maxNameBytes : Nat := 255

def maxPathBytes : Nat := 4095

/-- Follows one name of a path from a folder. A name that is too long is not
even looked for. -/
def enter (tree : FileTree) (place : Place) (name : String) : Except ReadFault Place :=
  match tree.at? place with
  | none => .error .notFound
  | some (.file _) => .error .notDirectory
  | some .folder =>
    if name = "" ∨ name = "." then .ok place
    else if name = ".." then .ok place.parent
    else if maxNameBytes < name.utf8ByteSize then .error .nameTooLong
    else
      match place with
      | .around => .error .notFound
      | .inside names =>
        if (tree.find? (names ++ [name])).isSome then .ok (.inside (names ++ [name]))
        else .error .notFound

def follow (tree : FileTree) : Place → List String → Except ReadFault Place
  | place, [] => .ok place
  | place, name :: names =>
    match tree.enter place name with
    | .error fault => .error fault
    | .ok next => tree.follow next names

def split : List Char → List (List Char)
  | [] => [[]]
  | '/' :: cs => [] :: split cs
  | c :: cs =>
    match split cs with
    | [] => [[c]]
    | name :: names => (c :: name) :: names

def read (tree : FileTree) (path : String) : Except ReadFault ByteArray :=
  if path = "" then .error .notFound
  else if maxPathBytes < path.utf8ByteSize then .error .nameTooLong
  else
    let start := if path.toList.head? = some '/' then Place.around else .inside []
    match tree.follow start ((split path.toList).map String.ofList) with
    | .error fault => .error fault
    | .ok place =>
      match tree.at? place with
      | none => .error .notFound
      | some .folder => .error .isDirectory
      | some (.file content) => .ok content

end FileTree

end WasmAssembly.Command
