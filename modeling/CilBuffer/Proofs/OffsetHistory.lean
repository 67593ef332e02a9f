import CilBuffer.Proofs.BufferAgreement
import CilBuffer.Proofs.Runs

/-!
# What has happened to the offsets of a buffer

The history of a buffer tells of the edits, of the opcodes that were set through handles of the
buffer, and of the questions about offsets that were answered. It does not tell of opcodes that were
set through handles of other buffers, even if the buffer holds them. An edit invalidates the
offsets, and so does the first question since a set. From the history alone follows at which question
the size of a step was last looked up.
-/

namespace CilBuffer

/-- An event in the history of a buffer. -/
inductive OffsetEvent where
  | edit
  /-- An opcode is set through a handle of the buffer. -/
  | set
  /-- The size of the first steps is asked for and answered, with the opcodes in effect. -/
  | query (position : Nat) (current : Opcodes)

/-- The events of a buffer, the latest first. -/
abbrev OffsetHistory : Type := List OffsetEvent

namespace OffsetHistory

/-- There has been a set, and no question about more than no steps since then. -/
def awaitsQuery : OffsetHistory → Bool
  | [] => false
  | .edit :: earlier => awaitsQuery earlier
  | .set :: _ => true
  | .query position _ :: earlier => position = 0 && awaitsQuery earlier

/-- The event is an edit, or the first question since a set. -/
def invalidates (earlier : OffsetHistory) : OffsetEvent → Bool
  | .edit => true
  | .set => false
  | .query position _ => 0 < position && awaitsQuery earlier

/-- The events from the latest invalidation on, or all of them if there was none. -/
def sinceInvalidation : OffsetHistory → OffsetHistory
  | [] => []
  | event :: earlier =>
    if invalidates earlier event then [event] else event :: sinceInvalidation earlier

end OffsetHistory

/-- The opcodes in effect at a question that reaches beyond the step at the index. -/
def OffsetEvent.reaching? (index : Nat) : OffsetEvent → Option Opcodes
  | .query position current => if index < position then some current else none
  | _ => none

namespace OffsetHistory

variable {history : OffsetHistory} {position index : Nat} {current : Opcodes}

/-- The opcodes in effect at the first question, from the latest invalidation on, that reaches
beyond the step at the index. -/
def seen? (history : OffsetHistory) (index : Nat) : Option Opcodes :=
  history.sinceInvalidation.reverse.findSome? (·.reaching? index)

/-- The size of each step as it was at the first question that reached beyond it, and as it is now
if there was none. -/
def seenSizes (history : OffsetHistory) (current : Opcodes) (steps : List Step) : List Nat :=
  steps.mapIdx fun index step => step.size ((history.seen? index).getD current)

theorem seen?_of_invalidates {event : OffsetEvent} (h : invalidates history event = true) :
    seen? (event :: history) index = event.reaching? index := by
  unfold seen? sinceInvalidation
  rw [if_pos h]
  cases found : event.reaching? index <;> simp [found]

theorem seen?_of_not_invalidates {event : OffsetEvent} (h : invalidates history event = false) :
    seen? (event :: history) index = (history.seen? index).or (event.reaching? index) := by
  have other : ¬ invalidates history event = true := by simp [h]
  unfold seen?
  rw [sinceInvalidation, if_neg other, List.reverse_cons, List.findSome?_append]
  cases found : event.reaching? index <;> simp [found]

/-- No question has been asked since the edit. -/
theorem seen?_edit (history : OffsetHistory) (index : Nat) :
    seen? (.edit :: history) index = none :=
  seen?_of_invalidates rfl

theorem seen?_query_of_awaits (h : history.awaitsQuery = true) (pos : 0 < position) :
    seen? (.query position current :: history) index
      = if index < position then some current else none := by
  apply seen?_of_invalidates
  simp [invalidates, h, pos]

theorem seen?_query (h : history.awaitsQuery = false ∨ position = 0) :
    seen? (.query position current :: history) index
      = (history.seen? index).or (if index < position then some current else none) := by
  apply seen?_of_not_invalidates
  obtain h | h := h <;> simp [invalidates, h]

theorem length_seenSizes (history : OffsetHistory) (current : Opcodes) (steps : List Step) :
    (history.seenSizes current steps).length = steps.length :=
  List.length_mapIdx

theorem getElem?_seenSizes (history : OffsetHistory) (current : Opcodes) (steps : List Step)
    (index : Nat) :
    (history.seenSizes current steps)[index]?
      = steps[index]?.map fun step => step.size ((history.seen? index).getD current) :=
  List.getElem?_mapIdx

end OffsetHistory

/-- What the operation adds to the history of the buffer that it concerns. -/
def Buffer.events (b : Buffer) (current : Opcodes) : Operation → OffsetHistory
  | .append _ _ | .emit _ _ | .newBuffer _ => [.edit]
  | .insert _ index _ => if index ≤ b.length then [.edit] else []
  | .remove _ index => if index < b.length then [.edit] else []
  | .setOpcode _ _ => [.set]
  | .cumulativeLength _ position =>
    if position ≤ b.length then [.query position current] else []
  | .byteDistance _ start stop =>
    if start ≤ b.length then
      if stop ≤ b.length then [.query stop current, .query start current]
      else [.query start current]
    else []
  | _ => []

namespace Session

/-- The buffer whose steps or offsets the operation concerns. A set concerns the buffer of its
handle. -/
def subject? (s : Session) : Operation → Option Nat
  | .append buffer _ | .insert buffer _ _ | .remove buffer _ | .emit buffer _
  | .cumulativeLength buffer _ | .byteDistance buffer _ _ => some buffer
  | .setOpcode handle _ => some handle.buffer
  | .newBuffer (some _) => some s.nextSerial
  | _ => none

/-- What the operation adds to the history of a buffer. -/
def events (s : Session) (id : Nat) (o : Operation) : OffsetHistory :=
  if s.subject? o = some id then (s.buffers id).events s.opcodes o else []

/-- The history of a buffer after a run, given its history so far. -/
def history (s : Session) (id : Nat) (past : OffsetHistory) : List Operation → OffsetHistory
  | [] => past
  | operation :: operations =>
    (s.perform operation).2.history id (s.events id operation ++ past) operations

variable {s : Session} {id : Nat} {o : Operation}

theorem events_of_subject (h : s.subject? o = some id) :
    s.events id o = (s.buffers id).events s.opcodes o :=
  if_pos h

/-- What a question leaves of the buffer that it is asked of. -/
theorem buffers_perform_cumulativeLength (s : Session) (id position : Nat) :
    (s.perform (.cumulativeLength id position)).2.buffers id
      = ((s.buffers id).cumulativeLength s.opcodes position).2 := by
  simp only [perform]
  split <;> rename_i answer <;> rw [answer, buffers_setBuffer_same]

theorem buffers_perform_byteDistance (s : Session) (id start stop : Nat) :
    (s.perform (.byteDistance id start stop)).2.buffers id
      = ((s.buffers id).byteDistance s.opcodes start stop).2 := by
  simp only [perform]
  split <;> rename_i answer <;> rw [answer, buffers_setBuffer_same]

/-- An operation that does not concern a buffer leaves it as it is. -/
theorem buffers_perform_of_ne (h : s.subject? o ≠ some id) :
    (s.perform o).2.buffers id = s.buffers id := by
  have apart : ∀ buffer, some buffer ≠ some id → id ≠ buffer := by
    intro buffer other same
    exact other (congrArg some same.symm)
  cases o with
  | newBuffer anchor =>
    cases anchor with
    | none => rfl
    | some name => exact buffers_setBuffer_of_ne _ _ (apart _ h)
  | append buffer step => exact buffers_setBuffer_of_ne _ _ (apart _ h)
  | insert buffer _ _ | remove buffer _ | cumulativeLength buffer _ | byteDistance buffer _ _ =>
    have ne := apart buffer h
    simp only [perform]
    split
    · exact buffers_setBuffer_of_ne _ _ ne
    · first
        | rfl
        | exact buffers_setBuffer_of_ne _ _ ne
  | emit buffer emission =>
    have ne := apart buffer h
    cases emission <;> exact buffers_setBuffer_of_ne _ _ ne
  | setOpcode handle op => exact buffers_setBuffer_of_ne _ _ (apart _ h)
  | replay step destination => cases destination <;> rfl
  | describe buffer scopes annotated => rw [perform_describe]
  | _ => rfl

end Session

end CilBuffer
