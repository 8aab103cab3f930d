import SchemaWire.Text.Hex
import SchemaWire.Text.Utf8

/-!
# Server errors

An error that a server reports: how grave it is, its number, a message, and attributes of which a
few have a meaning for the reader of the message.
-/

namespace SchemaWire

/-- The gravity from which on a report is a warning. -/
def warningSeverity : UInt8 := 0x50

/-- The gravity from which on an error ends the connection. -/
def fatalSeverity : UInt8 := 0xC8

/-- An error that a server reports. -/
structure ServerError where
  /-- How grave it is. -/
  severity : UInt8
  /-- Its number. -/
  code : UInt32
  /-- What happened. -/
  message : String
  /-- Byte strings under attribute numbers. -/
  attributes : List (UInt16 × List UInt8)
  deriving DecidableEq, Repr

namespace ServerError

/-- The number of the attribute that says how to mend the error. -/
def hintCode : UInt16 := 0x0001

/-- The number of the attribute that explains the error. -/
def detailsCode : UInt16 := 0x0002

/-- The text of an attribute: of several under one number the first, if it is text. -/
def attribute? (error : ServerError) (code : UInt16) : Option String :=
  match error.attributes.find? fun entry => entry.1 = code with
  | none => none
  | some entry => (Utf8.decode entry.2).toOption

/-- How to mend the error. -/
def hint? (error : ServerError) : Option String :=
  error.attribute? hintCode

/-- An explanation of the error. -/
def details? (error : ServerError) : Option String :=
  error.attribute? detailsCode

/-- Whether the error ends the connection. -/
def isFatal (error : ServerError) : Bool :=
  fatalSeverity ≤ error.severity

/-- A line that an attribute adds to the text of an error. -/
def line (label : String) : Option String → String
  | none => ""
  | some text => "\n" ++ label ++ ": " ++ text

/-- The error as text: message and number, then explanation and hint on lines of their own. -/
def text (error : ServerError) : String :=
  error.message ++ " (code 0x" ++ Hex.paddedUpper 8 error.code.toNat ++ ")"
    ++ line "DETAILS" error.details? ++ line "HINT" error.hint?

end ServerError
end SchemaWire
