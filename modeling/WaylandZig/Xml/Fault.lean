import WaylandZig.Text.Quoted
import WaylandZig.Xml.Name

/-! # XML faults

Why a document cannot be read as XML. Most faults are places where the text is malformed and carry
the line that reading had reached.
-/
namespace WaylandZig.Xml

inductive Malformed where
  | endOfInput
  | endInCdata
  | strayEndTag (name : Name)
  | crossedTags (opened closed : Name)
  | crossedSpaces (opened closed : Name)
  | noElementName
  | noEndTagName
  | junkInEndTag (name : Name)
  | noAttributeName
  | noEqualsSign
  | noQuotedValue
  | brokenEmptyTag
  | lessInQuotes
  | strayCdataEnd
  | brokenCdataStart
  | brokenCommentStart
  | dashesInComment
  | noTargetName
  | badReference (text : Bytes)
  | illegalCharacter (c : Char)
  | invalidUtf8
  | invalidName (name : Bytes)
  deriving DecidableEq, Repr

namespace Malformed

/-- A code point in the form `U+0001`. -/
def codePoint (c : Char) : Bytes :=
  "U+" ++ (Numeral.padded 16 4 c.toNat).map Ascii.toUpper

def shownSpace (space : Bytes) : Bytes := if space.isEmpty then "\"\"" else space

/-- A reference that was broken off is marked as such. -/
def shownReference (text : Bytes) : Bytes :=
  if text.endsWith ";" then text else text ++ " (no semicolon)"

def text : Malformed → Bytes
  | .endOfInput => "unexpected EOF"
  | .endInCdata => "unexpected EOF in CDATA section"
  | .strayEndTag name => "unexpected end element </" ++ name.localPart ++ ">"
  | .crossedTags opened closed =>
    "element <" ++ opened.localPart ++ "> closed by </" ++ closed.localPart ++ ">"
  | .crossedSpaces opened closed =>
    "element <" ++ opened.localPart ++ "> in space " ++ opened.space ++ " closed by </"
      ++ closed.localPart ++ "> in space " ++ shownSpace closed.space
  | .noElementName => "expected element name after <"
  | .noEndTagName => "expected element name after </"
  | .junkInEndTag name => "invalid characters between </" ++ name.localPart ++ " and >"
  | .noAttributeName => "expected attribute name in element"
  | .noEqualsSign => "attribute name without = in element"
  | .noQuotedValue => "unquoted or missing attribute value in element"
  | .brokenEmptyTag => "expected /> in element"
  | .lessInQuotes => "unescaped < inside quoted string"
  | .strayCdataEnd => "unescaped ]]> not in CDATA section"
  | .brokenCdataStart => "invalid <![ sequence"
  | .brokenCommentStart => "invalid sequence <!- not part of <!--"
  | .dashesInComment => "invalid sequence \"--\" not allowed in comments"
  | .noTargetName => "expected target name after <?"
  | .badReference text => "invalid character entity " ++ shownReference text
  | .illegalCharacter c => "illegal character code " ++ codePoint c
  | .invalidUtf8 => "invalid UTF-8"
  | .invalidName name => "invalid XML name: " ++ name

end Malformed

inductive Fault where
  | malformed (line : Nat) (what : Malformed)
  | unsupportedVersion (version : Bytes)
  | unsupportedEncoding (encoding : Bytes)
  deriving DecidableEq, Repr

def Fault.text : Fault → Bytes
  | .malformed line what =>
    "XML syntax error on line " ++ Numeral.decimal line ++ ": " ++ what.text
  | .unsupportedVersion version =>
    "xml: unsupported version " ++ Quoted.quote version ++ "; only version 1.0 is supported"
  | .unsupportedEncoding encoding =>
    "xml: encoding " ++ Quoted.quote encoding ++ " declared but Decoder.CharsetReader is nil"

end WaylandZig.Xml
