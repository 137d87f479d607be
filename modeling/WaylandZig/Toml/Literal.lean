import WaylandZig.Bytes

/-! # TOML statements

A TOML text is a list of statements: headers that open a table, headers that add a table to an
array, and assignments. A key is the list of its parts.
-/
namespace WaylandZig.Toml

abbrev Key := List Bytes

/-- A value as it is written. Floats and dates are kept as their text. -/
inductive Literal where
  | text (s : Bytes)
  | integer (n : Int)
  | float (written : Bytes)
  | boolean (b : Bool)
  | dateTime (written : Bytes)
  | array (items : List Literal)
  | table (entries : List (Key × Literal))
  deriving Repr

inductive Statement where
  | table (key : Key)
  | tableArray (key : Key)
  | assign (key : Key) (value : Literal)
  deriving Repr

end WaylandZig.Toml
