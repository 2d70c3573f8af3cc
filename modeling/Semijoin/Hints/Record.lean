import Semijoin.Value.Display

/-!
# Hint records

Optional statistics about what one operator produces. Hints are advisory: any value that is a
finite number not below zero is taken, and everything else is refused without changing the record.
-/

namespace Semijoin

/-- The names of the hints. -/
inductive Hint where
  | keyCardinality
  | valuesPerKey
  | bytesPerRecord
  | recordsPerCall
deriving DecidableEq, Inhabited

namespace Hint

def name : Hint → String
  | keyCardinality => "key_cardinality"
  | valuesPerKey => "avg_values_per_key"
  | bytesPerRecord => "avg_bytes_per_record"
  | recordsPerCall => "avg_records_emitted_per_call"

def all : List Hint := [keyCardinality, valuesPerKey, bytesPerRecord, recordsPerCall]

def ofName? (t : Text) : Option Hint := all.find? fun hint => t = hint.name

end Hint

/-- The hints of one operator: the number of distinct keys it produces, how many values each key
has, how large a record is, and by how much the operator multiplies the number of records. -/
structure HintRecord where
  keyCardinality : Option Nat := none
  valuesPerKey : Option Binary64 := none
  bytesPerRecord : Option Binary64 := none
  recordsPerCall : Binary64 := .one
deriving DecidableEq, Inhabited

inductive HintFault where
  | notANumber
  | notFinite
  | negative
  | notWhole
deriving DecidableEq

def HintFault.reason : HintFault → String
  | notANumber => "must be a number"
  | notFinite => "must be finite"
  | negative => "must be >= 0"
  | notWhole => "must be a whole number"

/-- Why a hint was not stored. A number beyond the range of the doubles is refused before anything
else is found out about it. -/
inductive HintError where
  | tooLarge
  | invalid (hint : Hint) (value : Value) (fault : HintFault)

/-- The words of the message, with integers of any length. -/
def HintError.wording : HintError → Text
  | tooLarge => ""
  | invalid hint value fault => s!"Hint '{hint.name}' {fault.reason}, got {value.quoted}"

/-- Whether no integer in the message is too long to be written. -/
def HintError.isWritable : HintError → Bool
  | tooLarge => true
  | invalid _ value _ => value.isWritable

/-- The message, if it can be written. An error without one never comes to be: writing the message
fails first. -/
def HintError.message? (e : HintError) : Option Text :=
  if e.isWritable then some e.wording else none

/-- A number as hints take it: the exact value beside the nearest double. -/
structure Quantity where
  exact : Rat
  double : Binary64

namespace HintRecord

/-- The quantity that a hint is set to. -/
def quantity (hint : Hint) (value : Value) : Except HintError Quantity :=
  let fromRat (q : Rat) : Except HintError Quantity :=
    match Binary64.ofRat? q with
    | none => .error .tooLarge
    | some x => if q < 0 then .error (.invalid hint value .negative) else .ok ⟨q, x⟩
  match value with
  | .int n => fromRat n
  | .fraction q => fromRat q
  | .float x =>
    match x.toRat? with
    | none => .error (.invalid hint value .notFinite)
    | some q => if q < 0 then .error (.invalid hint value .negative) else .ok ⟨q, x⟩
  | _ => .error (.invalid hint value .notANumber)

/-- Whether a quantity counts as whole: an integer does, anything else if its double is one. -/
def isWhole (value : Value) (q : Quantity) : Bool :=
  match value, q.double.toRat? with
  | .int _, _ => true
  | _, some x => x.den = 1
  | _, none => false

/-- Sets one hint. -/
def set (r : HintRecord) (hint : Hint) (value : Value) : Except HintError HintRecord := do
  let q ← quantity hint value
  match hint with
  | .keyCardinality =>
    if isWhole value q then return { r with keyCardinality := some q.exact.floor.toNat }
    else throw (.invalid hint value .notWhole)
  | .valuesPerKey => return { r with valuesPerKey := some q.double }
  | .bytesPerRecord => return { r with bytesPerRecord := some q.double }
  | .recordsPerCall => return { r with recordsPerCall := q.double }

/-- The value of one hint, if it is known. -/
def get? (r : HintRecord) : Hint → Option Value
  | .keyCardinality => r.keyCardinality.map fun n => .int n
  | .valuesPerKey => r.valuesPerKey.map .float
  | .bytesPerRecord => r.bytesPerRecord.map .float
  | .recordsPerCall => some (.float r.recordsPerCall)

/-- The hints that are known, by name. -/
def known (r : HintRecord) : List (String × Value) :=
  Hint.all.filterMap fun hint => (r.get? hint).map (hint.name, ·)

/-- The rows implied by the number of keys and the values of each, where both are known. They are
counted in doubles, so a number of keys beyond their range would be refused. -/
def rows (r : HintRecord) : Except HintError (Option Binary64) :=
  match r.keyCardinality, r.valuesPerKey with
  | some keys, some values =>
    match Binary64.ofInt? keys with
    | some x => .ok (some (x.mul values))
    | none => .error .tooLarge
  | _, _ => .ok none

/-- The rows, as far as they are known. -/
def rows? (r : HintRecord) : Option Binary64 := r.rows.toOption.join

/-- The known hints as `name=value`. -/
def pairsText (known : List (String × Value)) : Text :=
  Text.join ", " (known.map fun (name, value) => name ++ "=" ++ value.plain)

def text (r : HintRecord) : Text := "CostHints(" ++ pairsText r.known ++ ")"

end HintRecord

end Semijoin
