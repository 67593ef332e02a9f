/-!
# Tables of offsets

The sizes of the steps of a buffer are summed up from the front, and the sums are kept until the
steps change. A table is filled no further than it was asked for, and a stale one is started anew
at the next question.
-/

namespace CilBuffer

/-- The sums after each number, on top of `total`. -/
def runningTotals (total : Nat) : List Nat → List Nat
  | [] => []
  | n :: ns => (total + n) :: runningTotals (total + n) ns

/-- Entry `i` is the size of the first `i` steps at the time when it was filled in. -/
structure OffsetTable where
  sums : List Nat
  /-- An opcode has been replaced, so the entries can be wrong. -/
  stale : Bool
  deriving DecidableEq, Repr

namespace OffsetTable

def empty : OffsetTable := ⟨[], false⟩

/-- The entries to continue from: those known, or the entry of no steps at all. -/
def known (t : OffsetTable) : List Nat := if t.stale || t.sums.isEmpty then [0] else t.sums

/-- The table with an entry for each position up to the given one. -/
def fill (t : OffsetTable) (position : Nat) (sizes : List Nat) : OffsetTable :=
  let missing := (sizes.drop (t.known.length - 1)).take (position + 1 - t.known.length)
  ⟨t.known ++ runningTotals (t.known.getLastD 0) missing, false⟩

/-- The size of the first steps. For none of them the table is not looked at. -/
def lengthTo (t : OffsetTable) (position : Nat) (sizes : List Nat) : Nat × OffsetTable :=
  if position = 0 then (0, t)
  else ((t.fill position sizes).sums.getD position 0, t.fill position sizes)

end OffsetTable

theorem length_runningTotals (total : Nat) (ns : List Nat) :
    (runningTotals total ns).length = ns.length := by
  induction ns generalizing total with
  | nil => rfl
  | cons n ns ih => simp [runningTotals, ih]

end CilBuffer
