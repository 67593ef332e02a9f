import CilBuffer.Proofs.OffsetHistory

/-!
# What a table of offsets remembers

Steps and their opcodes can be shared by buffers, and an opcode can be set behind the back of a
buffer. Then the table of the buffer keeps the sizes that it has looked up: each entry adds up the
sizes that the steps had at the first question that reached them since the offsets were last
invalidated, and these can come from different times. This holds in every run, whatever is shared.
-/

namespace CilBuffer

namespace OffsetTable

variable {t : OffsetTable} {history : OffsetHistory} {steps : List Step} {position : Nat}

/-- The table goes with the history: it is stale only if a question is awaited, and otherwise has
an entry after each step that a question has reached, with the sizes seen at the time. -/
structure Remembers (t : OffsetTable) (history : OffsetHistory) (steps : List Step) : Prop where
  awaits : t.stale = true → history.awaitsQuery = true
  /-- An edit after the set has emptied the table. -/
  renewed : history.awaitsQuery = true → t.stale = false → t.sums = []
  reach : t.stale = false → ∀ i, (history.seen? i).isSome = true ↔ i + 1 < t.sums.length
  agrees : ∀ current, t.Agrees (history.seenSizes current steps)

/-- Lists with the same entries at the first places have the same first entries. -/
theorem take_eq_of_getElem? {xs ys : List Nat} {count : Nat}
    (h : ∀ i < count, xs[i]? = ys[i]?) : xs.take count = ys.take count := by
  apply List.ext_getElem?
  intro i
  by_cases inside : i < count
  · rw [List.getElem?_take_of_lt inside, List.getElem?_take_of_lt inside, h i inside]
  · have outside : ∀ zs : List Nat, (zs.take count)[i]? = none := by
      intro zs
      apply List.getElem?_eq_none
      rw [List.length_take]
      omega
    rw [outside, outside]

theorem remembers_empty (history : OffsetHistory) (steps : List Step) :
    OffsetTable.empty.Remembers (.edit :: history) steps := by
  refine ⟨?_, fun _ _ => rfl, ?_, fun _ => agrees_empty _⟩
  · intro stale
    cases stale
  · intro _ i
    rw [OffsetHistory.seen?_edit]
    simp [OffsetTable.empty]

theorem remembers_of_stale (h : t.stale = true) (history : OffsetHistory) (steps : List Step) :
    t.Remembers (.set :: history) steps := by
  refine ⟨fun _ => rfl, ?_, ?_, fun _ => agrees_of_stale h _⟩
  · intro _ fresh
    rw [h] at fresh
    cases fresh
  · intro fresh
    rw [h] at fresh
    cases fresh

theorem known_of_not_usable (h : t.stale = true ∨ t.sums = []) : t.known = [0] := by
  unfold known
  obtain stale | nothing := h
  · simp [stale]
  · simp [nothing]

theorem lt_known_iff (fresh : t.stale = false) (i : Nat) :
    i < t.known.length - 1 ↔ i + 1 < t.sums.length := by
  by_cases nothing : t.sums = []
  · simp [known_of_not_usable (.inr nothing), nothing]
  · have all : t.known = t.sums := by
      unfold known
      simp [fresh, nothing]
    rw [all]
    omega

/-- A question leaves what the table knows as it is, and sees the other steps that it reaches. -/
theorem Remembers.seen?_query (h : t.Remembers history steps) (pos : 0 < position)
    (current : Opcodes) (i : Nat) :
    (i < t.known.length - 1 ∧ (history.seen? i).isSome = true ∧
        OffsetHistory.seen? (.query position current :: history) i = history.seen? i) ∨
      (t.known.length - 1 ≤ i ∧
        OffsetHistory.seen? (.query position current :: history) i
          = if i < position then some current else none) := by
  cases awaited : history.awaitsQuery with
  | true =>
    right
    have nothing : t.known = [0] := by
      apply known_of_not_usable
      cases stale : t.stale with
      | true => exact .inl rfl
      | false => exact .inr (h.renewed awaited stale)
    rw [nothing]
    exact ⟨Nat.zero_le i, OffsetHistory.seen?_query_of_awaits awaited pos⟩
  | false =>
    have fresh : t.stale = false := by
      cases stale : t.stale with
      | false => rfl
      | true =>
        rw [h.awaits stale] at awaited
        cases awaited
    have known := (lt_known_iff fresh i).trans (h.reach fresh i).symm
    rw [OffsetHistory.seen?_query (.inl awaited)]
    cases seen : history.seen? i with
    | some before =>
      left
      rw [seen] at known
      exact ⟨known.mpr rfl, rfl, rfl⟩
    | none =>
      right
      rw [seen] at known
      refine ⟨?_, rfl⟩
      apply Nat.le_of_not_lt
      intro lt
      cases known.mp lt

/-- The entries of the table agree with the sizes seen, those of the question included. -/
theorem Remembers.agrees_query (h : t.Remembers history steps) (pos : 0 < position)
    (current later : Opcodes) :
    t.Agrees (OffsetHistory.seenSizes (.query position current :: history) later steps) := by
  have before := h.agrees later
  constructor
  · intro fresh
    have len := before.length_le fresh
    rw [OffsetHistory.length_seenSizes] at len ⊢
    exact len
  · intro fresh i hi
    rw [before.contents fresh i hi]
    have same : (history.seenSizes later steps).take i
        = (OffsetHistory.seenSizes (.query position current :: history) later steps).take i := by
      apply take_eq_of_getElem?
      intro j hj
      have inside : j < t.known.length - 1 := (lt_known_iff fresh j).mpr (by omega)
      rw [OffsetHistory.getElem?_seenSizes, OffsetHistory.getElem?_seenSizes]
      obtain ⟨-, -, seen⟩ | ⟨outside, -⟩ := h.seen?_query pos current j
      · rw [seen]
      · omega
    rw [same]

/-- What a question fills in are sizes that it is the first to see. -/
theorem Remembers.fill_eq (h : t.Remembers history steps) (pos : 0 < position)
    (current later : Opcodes) :
    t.fill position (steps.map (·.size current))
      = t.fill position
          (OffsetHistory.seenSizes (.query position current :: history) later steps) := by
  have known := t.known_length_pos
  have same : ((steps.map (·.size current)).drop (t.known.length - 1)).take
        (position + 1 - t.known.length)
      = ((OffsetHistory.seenSizes (.query position current :: history) later steps).drop
          (t.known.length - 1)).take (position + 1 - t.known.length) := by
    apply take_eq_of_getElem?
    intro j hj
    have reached : t.known.length - 1 + j < position := by omega
    rw [List.getElem?_drop, List.getElem?_drop, List.getElem?_map,
      OffsetHistory.getElem?_seenSizes]
    obtain ⟨inside, -⟩ | ⟨-, seen⟩ := h.seen?_query pos current (t.known.length - 1 + j)
    · omega
    · rw [seen, if_pos reached]
      rfl
  simp only [fill, same]

/-- A question about no steps changes nothing, and nothing is seen at it. -/
theorem Remembers.query_zero (h : t.Remembers history steps) (current : Opcodes) :
    t.Remembers (.query 0 current :: history) steps := by
  have seen : ∀ i, OffsetHistory.seen? (.query 0 current :: history) i = history.seen? i := by
    intro i
    rw [OffsetHistory.seen?_query (.inr rfl)]
    simp
  have awaits : OffsetHistory.awaitsQuery (.query 0 current :: history) = history.awaitsQuery := by
    simp [OffsetHistory.awaitsQuery]
  refine ⟨?_, ?_, ?_, ?_⟩
  · rw [awaits]
    exact h.awaits
  · rw [awaits]
    exact h.renewed
  · intro fresh i
    rw [seen]
    exact h.reach fresh i
  · intro later
    unfold OffsetHistory.seenSizes
    simp only [seen]
    exact h.agrees later

/-- The table that a question leaves goes with the history that the question is added to. -/
theorem Remembers.fill (h : t.Remembers history steps) (pos : 0 < position)
    (le : position ≤ steps.length) (current : Opcodes) :
    (t.fill position (steps.map (·.size current))).Remembers
      (.query position current :: history) steps := by
  refine ⟨?_, ?_, ?_, ?_⟩
  · intro stale
    cases stale
  · intro awaited
    have positive : position ≠ 0 := by omega
    simp [OffsetHistory.awaitsQuery, positive] at awaited
  · intro _ i
    have known := t.known_length_pos
    have len := t.length_fill position (steps.map (·.size current))
    rw [List.length_map] at len
    obtain ⟨inside, some, seen⟩ | ⟨outside, seen⟩ := h.seen?_query pos current i
    · rw [seen]
      simp only [some, true_iff]
      omega
    · rw [seen]
      by_cases hi : i < position
      · simp only [hi, ↓reduceIte, Option.isSome_some, true_iff]
        omega
      · simp only [hi, ↓reduceIte, Option.isSome_none, Bool.false_eq_true, false_iff]
        omega
  · intro later
    rw [h.fill_eq pos current later]
    apply (h.agrees_query pos current later).fill
    rw [OffsetHistory.length_seenSizes]
    exact le

/-- A table that goes with a history answers with the sizes that the history has seen, those of the
question included. -/
theorem Remembers.lengthTo (h : t.Remembers history steps) (le : position ≤ steps.length)
    (current : Opcodes) :
    (t.lengthTo position (steps.map (·.size current))).1
        = ((OffsetHistory.seenSizes (.query position current :: history) current steps).take
            position).sum ∧
      (t.lengthTo position (steps.map (·.size current))).2.Remembers
        (.query position current :: history) steps := by
  by_cases zero : position = 0
  · subst zero
    exact ⟨by simp [OffsetTable.lengthTo], h.query_zero current⟩
  · have pos : 0 < position := Nat.pos_of_ne_zero zero
    have reach : position
        ≤ (OffsetHistory.seenSizes (.query position current :: history) current steps).length := by
      rw [OffsetHistory.length_seenSizes]
      exact le
    have answer := ((h.agrees_query pos current current).lengthTo reach).1
    have filled := h.fill pos le current
    simp only [OffsetTable.lengthTo, zero, ↓reduceIte] at answer ⊢
    rw [← h.fill_eq pos current current] at answer
    exact ⟨answer, filled⟩

end OffsetTable

namespace Buffer

variable {b : Buffer} {history : OffsetHistory}

/-- The table of the buffer goes with the history. -/
def Remembers (b : Buffer) (history : OffsetHistory) : Prop := b.offsets.Remembers history b.steps

/-- The size of the first steps, each as it was at the first question that reached it, with the
question that is asked now. -/
def seenLength (b : Buffer) (history : OffsetHistory) (current : Opcodes) (position : Nat) : Nat :=
  ((OffsetHistory.seenSizes (.query position current :: history) current b.steps).take position).sum

theorem Remembers.cumulativeLength (h : b.Remembers history) {position : Nat}
    (le : position ≤ b.length) (current : Opcodes) :
    ∃ c, b.cumulativeLength current position
        = (.ok (b.seenLength history current position), c) ∧
      c.steps = b.steps ∧ c.Remembers (.query position current :: history) := by
  obtain ⟨answer, remembers⟩ := OffsetTable.Remembers.lengthTo h le current
  have same : (b.offsets.lengthTo position (b.sizes current)).1
      = b.seenLength history current position := answer
  refine ⟨{ b with offsets := (b.offsets.lengthTo position (b.sizes current)).2 }, ?_, rfl,
    remembers⟩
  rw [cumulativeLength_of_le le, same]

/-- The two questions behind a distance are asked one after the other. -/
theorem Remembers.byteDistance (h : b.Remembers history) {start stop : Nat}
    (first : start ≤ b.length) (second : stop ≤ b.length) (current : Opcodes) :
    ∃ c, b.byteDistance current start stop
        = (.ok (b.seenLength (.query start current :: history) current stop
            - b.seenLength history current start), c) ∧
      c.Remembers (.query stop current :: .query start current :: history) := by
  obtain ⟨c, answer, steps, remembers⟩ := h.cumulativeLength first current
  have le : stop ≤ c.length := by
    unfold length
    rw [steps]
    exact second
  obtain ⟨d, answer', -, remembers'⟩ := Remembers.cumulativeLength remembers le current
  have same : c.seenLength (.query start current :: history) current stop
      = b.seenLength (.query start current :: history) current stop := by
    unfold seenLength
    rw [steps]
  refine ⟨d, ?_, remembers'⟩
  simp only [Buffer.byteDistance, answer, answer', same]

/-- A distance whose second index is refused has asked the first question all the same. -/
theorem Remembers.byteDistance_of_gt (h : b.Remembers history) {start stop : Nat}
    (first : start ≤ b.length) (beyond : b.length < stop) (current : Opcodes) :
    (b.byteDistance current start stop).2.Remembers (.query start current :: history) := by
  obtain ⟨c, answer, steps, remembers⟩ := h.cumulativeLength first current
  have gt : c.length < stop := by
    unfold length
    rw [steps]
    exact beyond
  simp only [Buffer.byteDistance, answer, cumulativeLength_of_gt gt]
  exact remembers

theorem remembers_ofSteps (steps : List Step) (history : OffsetHistory) :
    (ofSteps steps).Remembers (.edit :: history) :=
  OffsetTable.remembers_empty history steps

theorem remembers_markStale (b : Buffer) (history : OffsetHistory) :
    b.markStale.Remembers (.set :: history) :=
  OffsetTable.remembers_of_stale rfl history _

end Buffer

namespace Session

variable {s : Session} {id : Nat} {past : OffsetHistory}

theorem remembers_new (id : Nat) : (new.buffers id).Remembers [] := by
  refine ⟨?_, fun _ _ => rfl, ?_, fun _ => OffsetTable.agrees_empty _⟩
  · intro stale
    cases stale
  · intro _ i
    constructor
    · intro seen
      cases seen
    · intro lt
      cases lt

theorem remembers_append (s : Session) (id : Nat) (step : Step) (past : OffsetHistory) :
    ((s.append id step).buffers id).Remembers (.edit :: past) := by
  unfold append
  rw [buffers_setBuffer_same]
  exact Buffer.remembers_ofSteps _ past

/-- What an operation leaves of the table of its buffer goes with what it adds to the history. -/
theorem remembers_perform_of_subject (h : (s.buffers id).Remembers past) {o : Operation}
    (concerned : s.subject? o = some id) :
    ((s.perform o).2.buffers id).Remembers ((s.buffers id).events s.opcodes o ++ past) := by
  cases o with
  | newBuffer anchor =>
    cases anchor with
    | none => cases concerned
    | some name =>
      cases concerned
      exact remembers_append (s.fresh.2.newLabel name).2 s.nextSerial _ past
  | append buffer step =>
    cases concerned
    exact remembers_append s id step past
  | emit buffer emission =>
    cases concerned
    cases emission <;> exact remembers_append _ id _ past
  | insert buffer index step =>
    cases concerned
    simp only [perform, Buffer.events]
    by_cases le : index ≤ (s.buffers id).length
    · rw [Buffer.insert_of_le le, if_pos le]
      simp only [buffers_setBuffer_same]
      exact Buffer.remembers_ofSteps _ past
    · rw [Buffer.insert_of_gt (Nat.lt_of_not_le le), if_neg le]
      exact h
  | remove buffer index =>
    cases concerned
    simp only [perform, Buffer.events]
    by_cases lt : index < (s.buffers id).length
    · rw [Buffer.remove_of_lt lt, if_pos lt]
      simp only [buffers_setBuffer_same]
      exact Buffer.remembers_ofSteps _ past
    · rw [Buffer.remove_of_ge (Nat.le_of_not_lt lt), if_neg lt]
      exact h
  | setOpcode handle op =>
    cases concerned
    simp only [perform, setOpcode, buffers_setBuffer_same]
    exact Buffer.remembers_markStale _ past
  | cumulativeLength buffer position =>
    cases concerned
    simp only [perform, Buffer.events]
    by_cases le : position ≤ (s.buffers id).length
    · obtain ⟨c, answer, -, remembers⟩ := h.cumulativeLength le s.opcodes
      rw [answer, if_pos le]
      simp only [buffers_setBuffer_same]
      exact remembers
    · rw [Buffer.cumulativeLength_of_gt (Nat.lt_of_not_le le), if_neg le]
      simp only [buffers_setBuffer_same]
      exact h
  | byteDistance buffer start stop =>
    cases concerned
    rw [buffers_perform_byteDistance]
    simp only [Buffer.events]
    by_cases first : start ≤ (s.buffers id).length
    · by_cases second : stop ≤ (s.buffers id).length
      · obtain ⟨c, answer, remembers⟩ := h.byteDistance first second s.opcodes
        rw [answer, if_pos first, if_pos second]
        exact remembers
      · rw [if_pos first, if_neg second]
        exact h.byteDistance_of_gt first (Nat.lt_of_not_le second) s.opcodes
    · rw [Buffer.byteDistance_of_start_gt (Nat.lt_of_not_le first), if_neg first]
      exact h
  | _ => cases concerned

/-- After each operation the table of a buffer goes with what the operation adds to its history. -/
theorem remembers_perform (h : (s.buffers id).Remembers past) (o : Operation) :
    ((s.perform o).2.buffers id).Remembers (s.events id o ++ past) := by
  by_cases concerned : s.subject? o = some id
  · rw [events_of_subject concerned]
    exact remembers_perform_of_subject h concerned
  · rw [buffers_perform_of_ne concerned, events, if_neg concerned]
    exact h

theorem remembers_run (h : (s.buffers id).Remembers past) (operations : List Operation) :
    ((s.run operations).2.buffers id).Remembers (s.history id past operations) := by
  induction operations generalizing s past with
  | nil => exact h
  | cons operation operations ih => exact ih (remembers_perform h operation)

/-- In every run, whatever steps and opcodes are shared, a buffer answers a question with the sizes
that its steps had at the first question, since its offsets were last invalidated, that reached
them. A distance is the difference of two such questions in a row. And no place of the table or of
the steps is read that does not exist. -/
theorem run_seenLength (operations : List Operation) (id : Nat) :
    let s := (new.run operations).2
    let b := s.buffers id
    let history := new.history id [] operations
    (∀ position, position ≤ b.length →
        (s.perform (.cumulativeLength id position)).1
          = .length (b.seenLength history s.opcodes position)) ∧
      (∀ start stop, start ≤ b.length → stop ≤ b.length →
        (s.perform (.byteDistance id start stop)).1
          = .distance (b.seenLength (.query start s.opcodes :: history) s.opcodes stop
              - b.seenLength history s.opcodes start)) ∧
      ∀ position, position ≤ b.length →
        b.offsets.lengthTo? position (b.sizes s.opcodes)
          = some (b.offsets.lengthTo position (b.sizes s.opcodes)) := by
  intro s b history
  have remembers : b.Remembers history := remembers_run (remembers_new id) operations
  refine ⟨?_, ?_, ?_⟩
  · intro position le
    obtain ⟨c, answer, -⟩ := remembers.cumulativeLength le s.opcodes
    simp only [perform]
    rw [answer]
  · intro start stop first second
    obtain ⟨c, answer, -⟩ := remembers.byteDistance first second s.opcodes
    simp only [perform]
    rw [answer]
  · intro position le
    apply b.offsets.lengthTo?_eq_some
    rw [Buffer.length_sizes]
    exact le

/-- A buffer holds a branch of another one twice. It has seen the first of them short when the
branch is made long through a handle of the other buffer. -/
def sharedBranch : List Operation :=
  [.newBuffer none, .newBuffer none, .newLabel "exit",
    .emit 0 (.branch .brS ⟨2, "exit", .plain⟩),
    .append 1 (.branch ⟨3, .brS⟩ ⟨2, "exit", .plain⟩),
    .append 1 (.branch ⟨3, .brS⟩ ⟨2, "exit", .plain⟩), .cumulativeLength 1 1,
    .setOpcode ⟨⟨3, .brS⟩, 0⟩ .br]

theorem sharedBranch_seenLength :
    2 ≤ ((new.run sharedBranch).2.buffers 1).length ∧
      ((new.run sharedBranch).2.perform (.cumulativeLength 1 2)).1 = .length (2 + 5) ∧
      ((new.run sharedBranch).2.perform (.byteDistance 1 2 1)).1 = .distance (-5) := by
  obtain ⟨answers, distances, -⟩ := run_seenLength sharedBranch 1
  have all : 2 ≤ ((new.run sharedBranch).2.buffers 1).length := by decide
  have one : 1 ≤ ((new.run sharedBranch).2.buffers 1).length := by decide
  refine ⟨all, ?_, ?_⟩
  · rw [answers 2 all]
    rfl
  · rw [distances 2 1 all one]
    rfl

end Session

end CilBuffer
