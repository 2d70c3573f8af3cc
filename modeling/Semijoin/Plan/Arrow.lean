import Semijoin.Plan.Build

/-!
# Scans of Arrow tables

The column types of a scan of an Arrow table, by the text of the Arrow types.
-/

namespace Semijoin

/-- A column of an Arrow table. -/
structure ArrowField where
  name : Text
  type : Text
  nullable : Bool

/-- The types whose text is fixed. -/
def arrowTypes : List (String × DataType) := [
  ("null", .null), ("bool", .boolean), ("int64", .bigint), ("int8", .integer), ("int16", .integer),
  ("int32", .integer), ("uint8", .integer), ("uint16", .integer), ("uint32", .integer),
  ("uint64", .integer), ("float", .float), ("halffloat", .double), ("double", .double),
  ("string", .varchar), ("large_string", .text)]

/-- The types whose text goes on with parameters. -/
def parametricArrowTypes : List (String × DataType) := [
  ("decimal32(", .decimal), ("decimal64(", .decimal), ("decimal128(", .decimal),
  ("decimal256(", .decimal), ("date32[", .date), ("date64[", .date), ("timestamp[", .timestamp)]

/-- The type of a column whose Arrow type has this text. -/
def DataType.ofArrow? (type : Text) : Option DataType :=
  match arrowTypes.find? fun (name, _) => type = name with
  | some (_, t) => some t
  | none => (parametricArrowTypes.find? fun (stem, _) => type.startsWith stem).map (·.2)

def ArrowField.toField (f : ArrowField) : Except BuildError Field :=
  match DataType.ofArrow? f.type with
  | some type => .ok ⟨f.name, type, f.nullable⟩
  | none => .error (.mismatch (.unsupportedType f.type))

/-- Why a table cannot be scanned: it is none, because a column of nulls is said to have none, or
there is no scan like it. -/
inductive ArrowFault where
  | nullsRefused
  | build (cause : BuildError)
deriving DecidableEq

def ArrowFault.message : ArrowFault → Text
  | nullsRefused => "A null type field may not be non-nullable"
  | build cause => cause.message

/-- Whether a column can be one of a table. -/
def ArrowField.isSound (f : ArrowField) : Bool :=
  f.nullable || DataType.ofArrow? f.type ≠ some .null

/-- A scan of a relation with the columns of an Arrow table. -/
def Plan.scanArrow (relation : Text) (columns : List ArrowField) (next : Nat) :
    Except ArrowFault (Plan × Nat) :=
  if !columns.all ArrowField.isSound then .error .nullsRefused
  else
    let result : Except BuildError (Plan × Nat) := do
      Build.scan relation (← columns.mapM ArrowField.toField) next
    result.mapError .build

end Semijoin
