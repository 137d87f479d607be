import WaylandZig.Ascii
import WaylandZig.Diagnostic
import WaylandZig.Text.Lowercase

/-! # Zig identifiers

Which names can stand as a bare identifier, and how a schema name that cannot is qualified. A
qualified name carries the name space of its document in front, or a fixed word when that name
space is itself no identifier.
-/
namespace WaylandZig.Zig

def keywords : List Bytes := List.map Bytes.ofString [
  "addrspace", "align", "allowzero", "and", "anyframe", "anytype", "asm", "async", "await",
  "break", "callconv", "catch", "comptime", "const", "continue", "defer", "else", "enum",
  "errdefer", "error", "export", "extern", "fn", "for", "if", "inline", "linksection", "noalias",
  "noinline", "nosuspend", "opaque", "or", "orelse", "packed", "pub", "resume", "return", "struct",
  "suspend", "switch", "test", "threadlocal", "try", "union", "unreachable", "usingnamespace",
  "var", "volatile", "while"]

def primitiveTypes : List Bytes := List.map Bytes.ofString [
  "isize", "usize", "c_char", "c_short", "c_ushort", "c_int", "c_uint", "c_long", "c_ulong",
  "c_longlong", "c_ulonglong", "c_longdouble", "f16", "f32", "f64", "f80", "f128", "bool",
  "anyopaque", "void", "noreturn", "type", "anyerror", "comptime_int", "comptime_float"]

/-- Literals of the language, and the names that every generated unit declares itself. -/
def fixedNames : List Bytes := ["true", "false", "null", "undefined", "std", "types"]

def reservedWords : List Bytes := keywords ++ primitiveTypes ++ fixedNames

/-- The integer types of any width, such as `i7` or `u32`. -/
def isIntegerType : Bytes → Bool
  | b :: d :: ds => (b == 0x69 || b == 0x75) && (d :: ds).all Ascii.isDigit
  | _ => false

def isReserved (name : Bytes) : Bool := reservedWords.contains name || isIntegerType name

/-- A letter or underscore, then letters, digits and underscores. -/
def isWordName : Bytes → Bool
  | [] => false
  | b :: rest => (Ascii.isLetter b || b == Ascii.underscore) && rest.all Ascii.isWord

def isIdentifier (name : Bytes) : Bool := isWordName name && name != "_" && !isReserved name

def startsWithLetter : Bytes → Bool
  | [] => false
  | b :: _ => Ascii.isLetter b

/-- The word in front of qualified names where the name space cannot be used. -/
def fallbackLead : Bytes := "id"

/-- How the names of one document are made identifiers. `lead` stands in front of qualified
names. -/
structure Naming where
  nameSpace : Bytes
  lead : Bytes
  deriving DecidableEq, Repr

namespace Naming

def ofNameSpace (nameSpace : Bytes) : Naming :=
  { nameSpace := nameSpace
    lead :=
      if startsWithLetter nameSpace && isIdentifier nameSpace then nameSpace else fallbackLead }

/-- Qualifies a reserved name, and one that does not start with a letter. -/
def qualify (n : Naming) (name : Bytes) : Bytes :=
  if isReserved name || !startsWithLetter name then n.lead ++ "_" ++ name else name

def invalidIdentifier (name out : Bytes) : Diagnostic :=
  { code := .invalidIdentifier
    message := Quoted.quote name ++ " cannot be made a valid identifier (got "
      ++ Quoted.quote out ++ ")" }

def identifier (n : Naming) (name : Bytes) : Except Diagnostic Bytes :=
  if isIdentifier (n.qualify name) then .ok (n.qualify name)
  else .error (invalidIdentifier name (n.qualify name))

/-- The declaration name of an interface: its name without the name space in front. -/
def interface (n : Naming) (name : Bytes) : Except Diagnostic Bytes :=
  n.identifier (if n.nameSpace.isEmpty then name else name.dropLead (n.nameSpace ++ "_"))

/-- The first byte in upper case; a byte outside ASCII becomes the replacement character. -/
def upperFirst (b : UInt8) : Bytes :=
  if b < 0x80 then [Ascii.toUpper b] else Bytes.ofChar Rune.replacement

def capitalize : Bytes → Bytes
  | [] => []
  | b :: rest => upperFirst b ++ Lowercase.lower rest

/-- The words between underscores, each capitalized, without the underscores. -/
def initialCaps (name : Bytes) : Bytes := (name.splitOn Ascii.underscore).flatMap capitalize

/-- The type name of an enum. -/
def enumType (n : Naming) (name : Bytes) : Except Diagnostic Bytes :=
  n.identifier (initialCaps name)

end Naming

end WaylandZig.Zig
