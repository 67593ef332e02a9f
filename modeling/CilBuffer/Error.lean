/-!
# Errors

What can go wrong with a buffer: an index outside the range that the operation admits, or a slot
that no local, two locals or no number stands for. The main statement says when an index is
admitted.
-/

namespace CilBuffer

/-- The indices that an operation admits: those below `limit`, and `limit` itself if inclusive. -/
structure ValidRange where
  limit : Nat
  inclusive : Bool
  deriving DecidableEq, Repr

namespace ValidRange

/-- The places before, between and after so many elements. -/
def positions (length : Nat) : ValidRange := ⟨length, true⟩

/-- The places of so many elements. -/
def elements (length : Nat) : ValidRange := ⟨length, false⟩

def contains (range : ValidRange) (index : Nat) : Bool :=
  if range.inclusive then index ≤ range.limit else index < range.limit

def text (range : ValidRange) : String :=
  "[0, " ++ range.limit.repr ++ if range.inclusive then "]" else ")"

theorem contains_positions {length index : Nat} :
    (positions length).contains index = true ↔ index ≤ length :=
  decide_eq_true_iff

end ValidRange

inductive IndexedOperation where
  | insert
  | remove
  | offsetQuery
  deriving DecidableEq, Repr

def IndexedOperation.text : IndexedOperation → String
  | .insert => "insert"
  | .remove => "remove"
  | .offsetQuery => "offset query"

/-- Why an operation on a buffer is refused. -/
inductive BufferError where
  | indexOutOfRange (operation : IndexedOperation) (index : Nat) (valid : ValidRange)
  /-- No active record has the slot. -/
  | missingScope (slot : UInt16) (index : Nat)
  /-- A number that is no slot stands where a slot is expected. -/
  | invalidSlot (operand : String) (index : Nat)
  /-- Two active records have one slot. -/
  | conflictingScopes (slot : UInt16) (index : Nat) (first second : String)
  deriving DecidableEq, Repr

namespace BufferError

def message : BufferError → String
  | .indexOutOfRange operation index valid =>
    operation.text ++ " index " ++ index.repr ++ " is out of range, expected a value in "
      ++ valid.text
  | .missingScope slot index =>
    "no local is in scope for slot " ++ slot.toNat.repr ++ " at step " ++ index.repr
  | .invalidSlot operand index =>
    "operand `" ++ operand ++ "` at step " ++ index.repr ++ " is not a local slot"
  | .conflictingScopes slot index first second =>
    "slot " ++ slot.toNat.repr ++ " at step " ++ index.repr ++ " is claimed by both `" ++ first
      ++ "` and `" ++ second ++ "`"

/-- Refuses an index outside the range. -/
def checkIndex (operation : IndexedOperation) (index : Nat) (valid : ValidRange) :
    Except BufferError Unit :=
  if valid.contains index then .ok () else .error (.indexOutOfRange operation index valid)

theorem checkIndex_eq_ok_iff {operation : IndexedOperation} {index : Nat} {valid : ValidRange} :
    checkIndex operation index valid = .ok () ↔ valid.contains index = true := by
  unfold checkIndex
  split <;> simp_all

end BufferError

end CilBuffer
