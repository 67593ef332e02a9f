import Mathlib.Algebra.GroupWithZero.Nat
import CilBuffer.Buffer.Basic

/-!
# Tables that agree with the sizes

A table agrees with a list of sizes if it is stale, or if each of its entries is the sum of the
sizes before its place. Such a table answers with a plain sum, and what an answer fills in agrees
again. The sizes are those of one moment: what becomes of a table when they change is a matter of
the operation that changes them.
-/

namespace CilBuffer

theorem getElem?_runningTotals {total i : Nat} {ns : List Nat} (h : i < ns.length) :
    (runningTotals total ns)[i]? = some (total + (ns.take (i + 1)).sum) := by
  induction ns generalizing total i with
  | nil => simp at h
  | cons n ns ih =>
    cases i with
    | zero => simp [runningTotals]
    | succ i =>
      have hi : i < ns.length := by simpa using h
      simp [runningTotals, ih hi, Nat.add_assoc]

namespace OffsetTable

/-- A table can be filled in part, and of a stale one nothing is asked. -/
structure Agrees (t : OffsetTable) (sizes : List Nat) : Prop where
  length_le : t.stale = false → t.sums.length ≤ sizes.length + 1
  contents : t.stale = false → ∀ i, i < t.sums.length → t.sums[i]? = some (sizes.take i).sum

theorem agrees_empty (sizes : List Nat) : OffsetTable.empty.Agrees sizes := by
  constructor
  · intro _
    exact Nat.zero_le _
  · intro _ i hi
    exact absurd hi (Nat.not_lt_zero i)

theorem agrees_of_stale {t : OffsetTable} (h : t.stale = true) (sizes : List Nat) :
    t.Agrees sizes := by
  constructor
  · intro fresh
    simp [h] at fresh
  · intro fresh
    simp [h] at fresh

theorem known_length_pos (t : OffsetTable) : 0 < t.known.length := by
  unfold known
  split
  · decide
  · rename_i h
    have hs : t.sums ≠ [] := by simp at h; exact h.2
    exact List.length_pos_iff.mpr hs

/-- The entries to continue from agree, whether they are those of the table or a new beginning. -/
theorem Agrees.known {t : OffsetTable} {sizes : List Nat} (h : t.Agrees sizes) :
    t.known.length ≤ sizes.length + 1 ∧
      ∀ i, i < t.known.length → t.known[i]? = some (sizes.take i).sum := by
  unfold OffsetTable.known
  split
  · refine ⟨by simp, ?_⟩
    intro i hi
    have hi0 : i = 0 := by simpa using hi
    simp [hi0]
  · rename_i hk
    have fresh : t.stale = false := by simp at hk; exact hk.1
    exact ⟨h.length_le fresh, h.contents fresh⟩

theorem length_fill (t : OffsetTable) (position : Nat) (sizes : List Nat) :
    (t.fill position sizes).sums.length =
      t.known.length
        + min (position + 1 - t.known.length) (sizes.length - (t.known.length - 1)) := by
  simp [fill, length_runningTotals]

theorem fill_known {t : OffsetTable} {i : Nat} (hi : i < t.known.length) (position : Nat)
    (sizes : List Nat) : (t.fill position sizes).sums[i]? = t.known[i]? := by
  simp only [fill]
  exact List.getElem?_append_left hi

/-- A new entry adds to the last known one the sizes since then. -/
theorem fill_new {t : OffsetTable} {position i : Nat} {sizes : List Nat}
    (hk : t.known.length ≤ i) (hi : i ≤ position) (hp : position ≤ sizes.length) :
    (t.fill position sizes).sums[i]? =
      some (t.known.getLastD 0
        + ((sizes.drop (t.known.length - 1)).take (i + 1 - t.known.length)).sum) := by
  have pos := t.known_length_pos
  simp only [fill]
  rw [List.getElem?_append_right hk]
  have within : i - t.known.length
      < ((sizes.drop (t.known.length - 1)).take (position + 1 - t.known.length)).length := by
    rw [List.length_take, List.length_drop]
    omega
  rw [getElem?_runningTotals within, List.take_take]
  have hm : min (i - t.known.length + 1) (position + 1 - t.known.length)
      = i + 1 - t.known.length := by omega
  rw [hm]

theorem sum_take_add (sizes : List Nat) (m n : Nat) :
    (sizes.take m).sum + ((sizes.drop m).take n).sum = (sizes.take (m + n)).sum := by
  rw [List.take_add, List.sum_append]

theorem Agrees.getLastD_known {t : OffsetTable} {sizes : List Nat} (h : t.Agrees sizes) :
    t.known.getLastD 0 = (sizes.take (t.known.length - 1)).sum := by
  have pos := t.known_length_pos
  have last := h.known.2 (t.known.length - 1) (by omega)
  rw [List.getLastD_eq_getLast?, List.getLast?_eq_getElem?, last]
  rfl

theorem Agrees.fill {t : OffsetTable} {position : Nat} {sizes : List Nat} (h : t.Agrees sizes)
    (hp : position ≤ sizes.length) : (t.fill position sizes).Agrees sizes := by
  have pos := t.known_length_pos
  have bound := h.known.1
  have len := t.length_fill position sizes
  constructor
  · intro _
    omega
  · intro _ i hi
    by_cases hk : i < t.known.length
    · rw [fill_known hk]
      exact h.known.2 i hk
    · have hip : i ≤ position := by omega
      rw [fill_new (by omega) hip hp, h.getLastD_known, sum_take_add]
      have reach : t.known.length - 1 + (i + 1 - t.known.length) = i := by omega
      rw [reach]

/-- A table that agrees answers with the sum of the sizes. -/
theorem Agrees.lengthTo {t : OffsetTable} {position : Nat} {sizes : List Nat} (h : t.Agrees sizes)
    (hp : position ≤ sizes.length) :
    (t.lengthTo position sizes).1 = (sizes.take position).sum ∧
      (t.lengthTo position sizes).2.Agrees sizes := by
  by_cases zero : position = 0
  · subst zero
    exact ⟨by simp [OffsetTable.lengthTo], by simpa [OffsetTable.lengthTo] using h⟩
  · have filled := h.fill hp
    have reached : position < (t.fill position sizes).sums.length := by
      have pos := t.known_length_pos
      have bound := h.known.1
      have len := t.length_fill position sizes
      omega
    have entry := filled.contents rfl position reached
    simp only [OffsetTable.lengthTo, zero, ↓reduceIte]
    exact ⟨by simp [List.getD_eq_getElem?_getD, entry], filled⟩

/-- So many more entries, one by one, with each place that is read checked to exist: the last entry
so far, and the size that comes next. -/
def extend? (sizes : List Nat) : Nat → List Nat → Option (List Nat)
  | 0, sums => some sums
  | count + 1, sums => do
    let last ← sums[sums.length - 1]?
    let size ← sizes[sums.length - 1]?
    extend? sizes count (sums ++ [last + size])

/-- The size of the first steps and the table afterwards, if each place that is read exists. -/
def lengthTo? (t : OffsetTable) (position : Nat) (sizes : List Nat) : Option (Nat × OffsetTable) :=
  if position = 0 then some (0, t)
  else do
    let sums ← extend? sizes (position + 1 - t.known.length) t.known
    let bytes ← sums[position]?
    return (bytes, ⟨sums, false⟩)

/-- As long as there are sizes left, the entries are those of the running totals. -/
theorem extend?_eq_some {sums sizes : List Nat} {count : Nat} (pos : 0 < sums.length)
    (enough : count ≤ sizes.length - (sums.length - 1)) :
    extend? sizes count sums =
      some (sums ++ runningTotals (sums.getLastD 0)
        ((sizes.drop (sums.length - 1)).take count)) := by
  induction count generalizing sums with
  | zero => simp [extend?, runningTotals]
  | succ count ih =>
    have last : sums[sums.length - 1]? = some (sums.getLastD 0) := by
      rw [List.getLastD_eq_getLast?, List.getLast?_eq_getElem?,
        List.getElem?_eq_getElem (by omega)]
      rfl
    have inside : sums.length - 1 < sizes.length := by omega
    have size : sizes[sums.length - 1]? = some sizes[sums.length - 1] :=
      List.getElem?_eq_getElem inside
    have more : count ≤ sizes.length
        - ((sums ++ [sums.getLastD 0 + sizes[sums.length - 1]]).length - 1) := by
      rw [List.length_append, List.length_singleton]
      omega
    have next := ih (by simp) more
    have reach : (sums ++ [sums.getLastD 0 + sizes[sums.length - 1]]).length - 1
        = sums.length - 1 + 1 := by simp; omega
    rw [reach] at next
    simp only [extend?, last, size, Option.bind_eq_bind, Option.bind_some, next]
    rw [List.drop_eq_getElem_cons inside, List.take_succ_cons, runningTotals]
    simp

/-- No place is read that does not exist, whatever the table holds. -/
theorem lengthTo?_eq_some {position : Nat} {sizes : List Nat} (t : OffsetTable)
    (h : position ≤ sizes.length) :
    t.lengthTo? position sizes = some (t.lengthTo position sizes) := by
  by_cases zero : position = 0
  · simp only [lengthTo?, lengthTo, zero, ↓reduceIte]
  · have pos := t.known_length_pos
    have len := t.length_fill position sizes
    have filled : extend? sizes (position + 1 - t.known.length) t.known
        = some (t.fill position sizes).sums := extend?_eq_some pos (by omega)
    have reached : position < (t.fill position sizes).sums.length := by omega
    have entry := List.getElem?_eq_getElem reached
    simp only [lengthTo?, lengthTo, zero, ↓reduceIte, filled, Option.bind_eq_bind,
      Option.bind_some, entry, List.getD_eq_getElem?_getD, Option.getD_some]
    rfl

end OffsetTable

end CilBuffer
