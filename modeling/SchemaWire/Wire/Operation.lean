import SchemaWire.Wire.Shape

/-!
# Read operations

A byte string that is present and empty is taken for none by who reads a field by its kind.  Read as
an element it stays what it was, be it a field of its own or the value of an attribute.
-/

namespace SchemaWire

/-- Read an attribute, its value as an element. -/
def Attribute.readElement : Reads Attribute := do
  let code ← Reads.word16
  let value ← Reads.element
  pure ⟨code, value⟩

/-- How a field is read. -/
inductive Operation where
  /-- By its kind. -/
  | plain (shape : Shape)
  /-- As an element. -/
  | element
  /-- As attributes whose values are elements. -/
  | elementAttributes
  deriving DecidableEq, Repr

namespace Operation

/-- Read a field. -/
def read : Operation → Reads Field
  | .plain shape => shape.read
  | .element => Reads.element.map .byteArray
  | .elementAttributes => (Reads.array .word16 Attribute.readElement).map .attributes

/-- Read fields one after the other. -/
def readAll : List Operation → Reads (List Field)
  | [] => pure []
  | operation :: operations => do
      let field ← operation.read
      let fields ← readAll operations
      pure (field :: fields)

/-- An operation is one for a field. -/
def Suits : Operation → Field → Prop
  | .plain shape, field => field.shape? = some shape
  | .element, .byteArray _ | .elementAttributes, .attributes _ => True
  | .element, _ | .elementAttributes, _ => False

end Operation
end SchemaWire
