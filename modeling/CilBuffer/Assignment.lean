/-!
# Assignments

A store is a function from keys to values. The main statements say what an assignment changes and
what it leaves alone.
-/

namespace CilBuffer

/-- The store `m`, with `v` at the key `k`. -/
def assign {α β : Type} [DecidableEq α] (m : α → β) (k : α) (v : β) : α → β :=
  fun x => if x = k then v else m x

variable {α β : Type} [DecidableEq α]

@[simp] theorem assign_same (m : α → β) (k : α) (v : β) : assign m k v k = v :=
  if_pos rfl

theorem assign_of_ne (m : α → β) {k x : α} (v : β) (h : x ≠ k) : assign m k v x = m x :=
  if_neg h

/-- To assign what is there already changes nothing. -/
@[simp] theorem assign_self (m : α → β) (k : α) :
    assign m k (m k) = m := by
  funext x
  by_cases h : x = k
  · rw [h, assign_same]
  · rw [assign_of_ne m (m k) h]

/-- What is assigned last stays. -/
theorem assign_assign (m : α → β) (k : α) (v w : β) :
    assign (assign m k v) k w = assign m k w := by
  funext x
  by_cases h : x = k
  · rw [h, assign_same, assign_same]
  · rw [assign_of_ne _ w h, assign_of_ne _ v h, assign_of_ne _ w h]

end CilBuffer
