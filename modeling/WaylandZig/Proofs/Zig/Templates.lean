import WaylandZig.Proofs.Pairing
import WaylandZig.Proofs.Text.Lines
import WaylandZig.Proofs.Text.Numeral
import WaylandZig.Proofs.Zig.Identifier
import WaylandZig.Proofs.Zig.SourceTree

/-! # Line templates

The code of a unit is made of few kinds of lines. A template is fixed text with places between that
hold a name, a path, a numeral or a type; what may fill a place is said by its kind. Nothing that may
fill a place ends a line, so a tree whose lines come from templates is split into these lines again.
-/
namespace WaylandZig.Zig

open Schema

/-- Fixed text, or a place that is filled in. -/
inductive Piece where
  | fixed (text : String)
  | identifier
  | path
  | unit
  | type
  | value
  | width
  deriving DecidableEq, Repr

instance : Coe String Piece := ⟨.fixed⟩

/-- Identifiers joined by dots, the first of them possibly that of another unit. -/
inductive IsPath : Bytes → Prop
  | name {name : Bytes} (h : isIdentifier name = true) : IsPath name
  | imported {unit name : Bytes} (hu : ∀ b ∈ unit, Ascii.isWord b = true)
    (h : isIdentifier name = true) : IsPath ("@import(\"" ++ unit ++ ".zig\")." ++ name)
  | member {path name : Bytes} (hp : IsPath path) (h : isIdentifier name = true) :
    IsPath (path ++ "." ++ name)

/-- What may stand at the place of a piece. A numeral is told by the number that it is read as. -/
def Piece.Admits (mappings : TypeMappings) : Piece → Bytes → Prop
  | .fixed text, part => part = text
  | .identifier, part => isIdentifier part = true
  | .path, part => IsPath part
  | .unit, part => ∀ b ∈ part, Ascii.isWord b = true
  | .type, part => IsPath part ∨ (∃ kind ∈ ArgKind.all, kind ≠ .fd ∧ part = defaultType kind) ∨
      ∃ mapping ∈ mappings, part = mapping.2
  | .value, part => ∃ n ≤ 0xFFFFFFFF, Numeral.nat? 10 part = some n ∨
      ∃ digits, part = "0x" ++ digits ∧ Numeral.nat? 16 digits = some n
  | .width, part => ∃ n, Numeral.nat? 10 part = some n ∧ 1 ≤ n ∧ n ≤ 32

/-- A line with its pieces filled in. -/
def Fills (mappings : TypeMappings) (pieces : List Piece) (line : Bytes) : Prop :=
  ∃ parts, List.Forall₂ (Piece.Admits mappings) pieces parts ∧ line = parts.flatten

/-- The lines that neither open nor close a block. -/
inductive Row where
  | typesImport
  | tag
  | field
  | member
  | flag
  | padding
  | widthCheck
  | stringType
  | arrayType
  | standardImport
  | documentImport
  | indexTypesImport
  | noTags
  | tags
  | noHandlers
  | handlers
  | noRequests
  | requests
  deriving DecidableEq, Repr

/-- What stands between the two types of tags in a table of handlers. -/
def handlerStruct : String :=
  ", ?struct \x7b context: *anyopaque, call: *const fn (*anyopaque, u32, "

def Row.pieces : Row → List Piece
  | .typesImport => ["const types = @import(\"",.unit,".zig\");"]
  | .tag => [.identifier,","]
  | .field => [.identifier,": ",.type,","]
  | .member => [.identifier," = ",.value,","]
  | .flag => [.identifier,": bool,"]
  | .padding => ["_: u",.width,","]
  | .widthCheck =>
    ["if (@bitSizeOf(@This()) != 32) @compileError(\"invalid bitfield ",.identifier,"\");"]
  | .stringType => ["pub const String = []const u8;"]
  | .arrayType => ["pub const Array = []const u32;"]
  | .standardImport => ["const std = @import(\"std\");"]
  | .documentImport => ["pub const ",.identifier," = @import(\"",.unit,".zig\");"]
  | .indexTypesImport => ["pub const types = @import(\"",.unit,".zig\");"]
  | .noTags => [".invalid = enum \x7b\x7d,"]
  | .tags => [".",.identifier," = ",.path,".event,"]
  | .noHandlers =>
    ["invalid: std.EnumArray(enum \x7b\x7d",handlerStruct,"enum \x7b\x7d, []const u8) void \x7d),"]
  | .handlers =>
    [.identifier,": std.EnumArray(",.path,".event",handlerStruct,.path,
      ".event, []const u8) void \x7d),"]
  | .noRequests => ["invalid: void,"]
  | .requests => [.identifier,": ",.path,".rq,"]

inductive Block where
  | requestTags
  | eventTags
  | requests
  | events
  | request
  | struct
  | enum
  | bitfield
  | comptime
  | interfaces
  | map
  | eventTable
  | requestTable
  deriving DecidableEq, Repr

def Block.head : Block → List Piece
  | .requestTags => ["pub const request = enum \x7b"]
  | .eventTags => ["pub const event = enum \x7b"]
  | .requests => ["pub const rq = union(request) \x7b"]
  | .events => ["pub const ev = struct \x7b"]
  | .request => [.identifier,": struct \x7b"]
  | .struct => ["pub const ",.identifier," = struct \x7b"]
  | .enum => ["pub const ",.identifier," = enum(u32) \x7b"]
  | .bitfield => ["pub const ",.identifier," = packed struct(u32) \x7b"]
  | .comptime => ["comptime \x7b"]
  | .interfaces => ["pub const Interface = enum \x7b"]
  | .map => ["pub const map = std.EnumArray(Interface, type).init(.\x7b"]
  | .eventTable => ["pub const Events = union(Interface) \x7b"]
  | .requestTable => ["pub const Requests = union(Interface) \x7b"]

/-- What follows the closing brace. -/
def Block.tail : Block → String
  | .request => ","
  | .comptime => ""
  | .map => ");"
  | _ => ";"

/-- Whether a block may be empty, and is then closed on its head line. -/
def Block.folds : Block → Bool
  | .requestTags | .eventTags | .requests | .events | .request | .struct | .enum => true
  | _ => false

inductive Template where
  | row (r : Row)
  | opening (b : Block)
  | closing (b : Block)
  | folded (b : Block) (h : b.folds = true)
  deriving DecidableEq, Repr

def Template.pieces : Template → List Piece
  | .row r => r.pieces
  | .opening b => b.head
  | .closing b => [.fixed ("\x7d" ++ b.tail)]
  | .folded b _ => b.head ++ [.fixed ("\x7d" ++ b.tail)]

/-- A line of code as a template makes it, its indent apart. -/
def Templated (mappings : TypeMappings) (line : Bytes) : Prop :=
  ∃ t : Template, Fills mappings t.pieces line

/-- A line of a unit is empty, a comment, or indented code from a template. -/
def UnitLine (mappings : TypeMappings) (indent : Nat) (line : Bytes) : Prop :=
  line = [] ∨ line.startsWith "//" = true ∨
    ∃ depth code, line = Bytes.spaces (depth * indent) ++ code ∧ Templated mappings code

section OneLine

variable {mappings : TypeMappings}

theorem newline_notMem_of_isWord {w : Bytes} (h : ∀ b ∈ w, Ascii.isWord b = true) :
    Ascii.newline ∉ w := by
  intro hn
  have hw := h _ hn
  revert hw
  decide

theorem newline_notMem_of_isIdentifier {name : Bytes} (h : isIdentifier name = true) :
    Ascii.newline ∉ name := by
  simp only [isIdentifier, Bool.and_eq_true] at h
  exact newline_notMem_of_isWord fun _ hb => isWord_of_isWordName h.1.1 hb

theorem IsPath.newline_notMem {path : Bytes} (h : IsPath path) : Ascii.newline ∉ path := by
  induction h with
  | name h => exact newline_notMem_of_isIdentifier h
  | imported hu h =>
    simp only [List.mem_append, not_or]
    exact ⟨⟨⟨by decide,newline_notMem_of_isWord hu⟩,by decide⟩,newline_notMem_of_isIdentifier h⟩
  | member _ h ih =>
    simp only [List.mem_append, not_or]
    exact ⟨⟨ih,by decide⟩,newline_notMem_of_isIdentifier h⟩

/-- Fixed text without the end of a line. -/
def Piece.oneLine : Piece → Bool
  | .fixed text => !(Bytes.ofString text).contains Ascii.newline
  | _ => true

theorem Row.pieces_oneLine (r : Row) : r.pieces.all Piece.oneLine = true := by
  cases r <;> simp only [Row.pieces, List.all_cons, Piece.oneLine, Bytes.ofString_eq_data] <;>
    decide +kernel

theorem Block.pieces_oneLine (b : Block) :
    (b.head ++ [Piece.fixed ("\x7d" ++ b.tail)]).all Piece.oneLine = true := by
  cases b <;> simp only [Block.head, Block.tail, List.cons_append, List.nil_append, List.all_cons,
    Piece.oneLine, Bytes.ofString_eq_data] <;> decide +kernel

theorem Template.pieces_oneLine (t : Template) : t.pieces.all Piece.oneLine = true := by
  cases t with
  | row r => exact r.pieces_oneLine
  | folded b _ => exact b.pieces_oneLine
  | opening b =>
    have hb := b.pieces_oneLine
    rw [List.all_append, Bool.and_eq_true] at hb
    exact hb.1
  | closing b =>
    have hb := b.pieces_oneLine
    rw [List.all_append, Bool.and_eq_true] at hb
    exact hb.2

theorem Piece.Admits.newline_notMem (hm : ∀ p ∈ mappings, Ascii.newline ∉ p.2) {p : Piece}
    (hp : p.oneLine = true) {part : Bytes} (h : p.Admits mappings part) : Ascii.newline ∉ part := by
  cases p with
  | fixed text =>
    obtain rfl : part = text := h
    simpa [Piece.oneLine] using hp
  | identifier => exact newline_notMem_of_isIdentifier h
  | path => exact IsPath.newline_notMem h
  | unit => exact newline_notMem_of_isWord h
  | type =>
    rcases h with h | ⟨kind,-,-,rfl⟩ | ⟨mapping,hmem,rfl⟩
    · exact h.newline_notMem
    · cases kind <;> decide
    · exact hm mapping hmem
  | value =>
    obtain ⟨n,-,hn | ⟨digits,rfl,hn⟩⟩ := h
    · exact newline_notMem_of_isWord (Numeral.isWord_of_nat? hn)
    · rw [List.mem_append, not_or]
      exact ⟨by decide,newline_notMem_of_isWord (Numeral.isWord_of_nat? hn)⟩
  | width =>
    obtain ⟨n,hn,-⟩ := h
    exact newline_notMem_of_isWord (Numeral.isWord_of_nat? hn)

/-- No template makes more than one line. -/
theorem Templated.newline_notMem (hm : ∀ p ∈ mappings, Ascii.newline ∉ p.2) {line : Bytes}
    (h : Templated mappings line) : Ascii.newline ∉ line := by
  obtain ⟨t,parts,hp,rfl⟩ := h
  intro hn
  obtain ⟨part,hpart,hn⟩ := List.mem_flatten.mp hn
  obtain ⟨p,hmem,ha⟩ := hp.exists_of_mem_right hpart
  exact ha.newline_notMem hm (List.all_eq_true.mp t.pieces_oneLine p hmem) hn

end OneLine

theorem fills_fixed (mappings : TypeMappings) (text : String) : Fills mappings [text] text :=
  ⟨[text],.cons rfl .nil,by simp⟩

theorem Fills.append {mappings : TypeMappings} {first second : List Piece} {a b : Bytes}
    (ha : Fills mappings first a) (hb : Fills mappings second b) :
    Fills mappings (first ++ second) (a ++ b) := by
  obtain ⟨parts,hp,rfl⟩ := ha
  obtain ⟨others,ho,rfl⟩ := hb
  exact ⟨parts ++ others,List.rel_append hp ho,List.flatten_append.symm⟩

/-- A row without places stands for itself. -/
theorem Row.templated_fixed (mappings : TypeMappings) (r : Row) {text : String}
    (hr : r.pieces = [.fixed text]) : Templated mappings text := by
  refine ⟨.row r,?_⟩
  rw [Template.pieces, hr]
  exact fills_fixed mappings text

namespace SourceTree

/-- Every line comes from a template, and only a block that folds is without a body. -/
inductive FromTemplates (mappings : TypeMappings) : SourceTree → Prop
  | blank : FromTemplates mappings .blank
  | line {text : Bytes} (h : Templated mappings text) : FromTemplates mappings (.line text)
  | block {head : Bytes} {body : List SourceTree} (b : Block) (hh : Fills mappings b.head head)
    (hf : body = [] → b.folds = true) (hb : ∀ t ∈ body, FromTemplates mappings t) :
    FromTemplates mappings (.block head b.tail body)

variable {mappings : TypeMappings}

theorem FromTemplates.unitLines {t : SourceTree} (h : t.FromTemplates mappings)
    (hm : ∀ p ∈ mappings, Ascii.newline ∉ p.2) (indent depth : Nat) :
    ∀ line ∈ t.lines indent depth, Ascii.newline ∉ line ∧ UnitLine mappings indent line := by
  have hcode (depth : Nat) {code : Bytes} (hc : Templated mappings code) :
      Ascii.newline ∉ pad indent depth ++ code ∧
        UnitLine mappings indent (pad indent depth ++ code) := by
    refine ⟨?_,.inr (.inr ⟨depth,code,rfl,hc⟩)⟩
    rw [List.mem_append, not_or]
    refine ⟨fun hs => ?_,hc.newline_notMem hm⟩
    have he : Ascii.newline = 0x20 := List.eq_of_mem_replicate hs
    exact absurd he (by decide)
  induction h generalizing depth with
  | blank =>
    intro line hl
    obtain rfl : line = [] := by simpa [SourceTree.lines] using hl
    exact ⟨List.not_mem_nil,.inl rfl⟩
  | line h =>
    intro line hl
    obtain rfl := List.mem_singleton.mp hl
    exact hcode depth h
  | @block head body b hh hf _ ih =>
    intro line hl
    rw [SourceTree.lines] at hl
    split at hl
    · rename_i he
      obtain rfl := List.mem_singleton.mp hl
      rw [List.append_assoc head, ← Bytes.ofString_append]
      exact hcode depth
        ⟨.folded b (hf (List.isEmpty_iff.mp he)),hh.append (fills_fixed mappings _)⟩
    · simp only [List.cons_append, List.mem_cons, List.mem_append, List.not_mem_nil, or_false] at hl
      rcases hl with rfl | hl | rfl
      · exact hcode depth ⟨.opening b,hh⟩
      · rw [allLines_eq_flatMap] at hl
        obtain ⟨t,ht,hl⟩ := List.mem_flatMap.mp hl
        exact ih t ht (depth + 1) line hl
      · rw [← Bytes.ofString_append]
        exact hcode depth ⟨.closing b,fills_fixed mappings _⟩

end SourceTree

/-- A text that was written line by line is made of these lines, and an empty one at its end. -/
theorem unitLine_of_mem_splitOn {mappings : TypeMappings} {indent : Nat} {lines : List Bytes}
    (h : ∀ line ∈ lines, Ascii.newline ∉ line ∧ UnitLine mappings indent line) :
    ∀ line ∈ Bytes.splitOn Ascii.newline (lines.flatMap (· ++ [Ascii.newline])),
      UnitLine mappings indent line := by
  intro line hl
  rw [Bytes.splitOn_lines fun l hl => (h l hl).1] at hl
  rcases List.mem_append.mp hl with hl | hl
  · exact (h line hl).2
  · obtain rfl := List.mem_singleton.mp hl
    exact .inl rfl

end WaylandZig.Zig
