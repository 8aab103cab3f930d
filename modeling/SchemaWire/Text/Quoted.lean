import SchemaWire.Text.Hex
import SchemaWire.Text.Printable

/-!
# Quoted names

Names that come from the other side of a connection stand in messages between double quotes, with
every character that could not be read there escaped.
-/

namespace SchemaWire
namespace Quoted

/-- A character as it stands between the quotes: quotes, backslashes and characters without a
glyph of their own are escaped. -/
def escape (char : Char) : List Char :=
  match char with
  | '"' => ['\\', '"']
  | '\\' => ['\\', '\\']
  | '\n' => ['\\', 'n']
  | '\r' => ['\\', 'r']
  | '\t' => ['\\', 't']
  | '\x00' => ['\\', '0']
  | char =>
      if Printable.holds char then
        [char]
      else
        ['\\', 'u', '\x7b'] ++ (Hex.numeral char.toNat).toList ++ ['\x7d']

/-- A name between double quotes. -/
def name (text : String) : String :=
  String.ofList (['"'] ++ text.toList.flatMap escape ++ ['"'])

/-- Names in brackets, separated by commas. -/
def names (texts : List String) : String :=
  "[" ++ String.intercalate ", " (texts.map name) ++ "]"

end Quoted
end SchemaWire
