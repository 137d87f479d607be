/-! # Byte strings

Names, paths and source text are sequences of bytes. A document, a file name or a setting may hold
any byte, and most rules of this library look at single bytes, so no encoding is assumed. A text
literal stands for its UTF-8 encoding.
-/
namespace WaylandZig

abbrev Bytes := List UInt8

namespace Bytes

def ofString (s : String) : Bytes := s.toList.flatMap String.utf8EncodeChar

instance : Coe String Bytes := ⟨ofString⟩

def ofChar (c : Char) : Bytes := String.utf8EncodeChar c

def ofChars (cs : List Char) : Bytes := cs.flatMap ofChar

/-- The parts between the separators; there is always one part more than there are separators. -/
def splitOn (sep : UInt8) : Bytes → List Bytes
  | [] => [[]]
  | b :: rest =>
    if b = sep then [] :: splitOn sep rest
    else match splitOn sep rest with
      | [] => [[b]]
      | part :: parts => (b :: part) :: parts

def joinWith (sep : Bytes) : List Bytes → Bytes
  | [] => []
  | [part] => part
  | part :: parts => part ++ sep ++ joinWith sep parts

/-- The bytes before the first separator, and those after it if there is one. -/
def cut (sep : UInt8) : Bytes → Bytes × Option Bytes
  | [] => ([], none)
  | b :: rest =>
    if b = sep then ([], some rest)
    else ((b :: (cut sep rest).1), (cut sep rest).2)

/-- The bytes before the last separator, if there is one. -/
def beforeLast? (sep : UInt8) : Bytes → Option Bytes
  | [] => none
  | b :: rest =>
    match beforeLast? sep rest with
    | some front => some (b :: front)
    | none => if b = sep then some [] else none

def startsWith (s lead : Bytes) : Bool := lead.isPrefixOf s

def endsWith (s tail : Bytes) : Bool := tail.isSuffixOf s

/-- Drops a leading `lead` and leaves every other byte string alone. -/
def dropLead (s lead : Bytes) : Bytes := if s.startsWith lead then s.drop lead.length else s

/-- Drops a final `tail` and leaves every other byte string alone. -/
def dropTail (s tail : Bytes) : Bytes :=
  if s.endsWith tail then s.take (s.length - tail.length) else s

/-- The offset of the first occurrence of `needle`. -/
def find? (s needle : Bytes) : Option Nat :=
  match s with
  | [] => if needle.isEmpty then some 0 else none
  | b :: rest =>
    if needle.isPrefixOf (b :: rest) then some 0 else (find? rest needle).map (· + 1)

/-- Lexical order by byte value. -/
def le : Bytes → Bytes → Bool
  | [], _ => true
  | _ :: _, [] => false
  | a :: as, b :: bs => a < b || (a == b && le as bs)

def sort (items : List Bytes) : List Bytes := items.mergeSort le

def spaces (n : Nat) : Bytes := List.replicate n 0x20

end Bytes

end WaylandZig
