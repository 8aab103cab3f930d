/-!
# Protocol versions
-/

namespace SchemaWire

/-- A version of the protocol.  Versions with one major number understand each other. -/
structure Version where
  /-- Major number. -/
  major : UInt16
  /-- Minor number. -/
  minor : UInt16
  deriving DecidableEq, Repr

namespace Version

/-- The version that a client asks for unless told otherwise. -/
def standard : Version := ⟨1, 0⟩

/-- The numbers of a version, joined by a dot. -/
def text (version : Version) : String :=
  s!"{version.major.toNat}.{version.minor.toNat}"

/-- Versions are ordered by major number, then by minor number. -/
instance : Ord Version where
  compare left right := (compare left.major right.major).then (compare left.minor right.minor)

end Version
end SchemaWire
