import Mathlib.Data.Finset.Card
import CilBuffer.Proofs.CallTallies
import CilBuffer.Proofs.Handles

/-!
# Beginnings and ends of regions

The calls that a target receives can begin and end regions in any order. Each end is matched with
the latest beginning before it that is not matched yet, if there is one, and a handler belongs to
the innermost region that is open at its call. By this matching alone the bytes of a target follow from
its calls, one by one: only an end can take more than its kind tells, and it does exactly if the
latest handler of the region that it is matched with is a finally. No order of the calls is assumed.
-/

namespace CilBuffer

namespace Call

/-- A region begins with the call at the position. -/
def BeginsAt (calls : List Call) (i : Nat) : Prop :=
  ∃ endLabel, calls[i]? = some (.beginException endLabel)

/-- The call at the position is the end of a region, or of none. -/
def EndsAt (calls : List Call) (j : Nat) : Prop := calls[j]? = some .endException

/-- The call gives the innermost open region a handler. -/
def isHandler : Call → Bool
  | .beginCatch _ | .beginFinally => true
  | _ => false

/-- The bytes of a call by its kind, those of an `endfinally` left out. -/
def bytes : Call → Nat
  | .instruction op (.labels handles) => op.size + 4 * handles.length
  | .instruction op _ => op.size
  | .beginCatch _ | .beginFinally | .endException => 5
  | _ => 0

/-- Before the position, the beginning at `i` is the latest that no end is matched with. An end at
`j` is matched with it if `Matched i j`. -/
structure Innermost (calls : List Call) (Matched : Nat → Nat → Prop) (position i : Nat) : Prop where
  begins : BeginsAt calls i
  before : i < position
  unmatched : ∀ j < position, ¬ Matched i j
  latest : ∀ m, i < m → m < position → BeginsAt calls m → ∃ j < position, Matched m j

/-- Each end is matched with the latest beginning before it that no earlier end is matched with, and
with no other. -/
def IsMatching (calls : List Call) (Matched : Nat → Nat → Prop) : Prop :=
  ∀ i j, Matched i j ↔ EndsAt calls j ∧ Innermost calls Matched j i

/-- Of the handlers that the region begun at `i` has been given before the position, the latest is a
finally. -/
def LatestIsFinally (calls : List Call) (Matched : Nat → Nat → Prop) (position i : Nat) : Prop :=
  ∃ h < position, Innermost calls Matched h i ∧ calls[h]? = some .beginFinally ∧
    ∀ l, h < l → l < position → Innermost calls Matched l i →
      ∀ call, calls[l]? = some call → call.isHandler = false

/-- The end at `j` is matched, with a region whose latest handler is a finally. -/
def ClosesFinally (calls : List Call) (Matched : Nat → Nat → Prop) (j : Nat) : Prop :=
  ∃ i, Matched i j ∧ LatestIsFinally calls Matched j i

variable {calls : List Call} {call : Call} {M M' : Nat → Nat → Prop} {i j n : Nat}

/-- Up to a position the matching is determined by what it is before. -/
theorem Innermost.congr (same : ∀ i, ∀ j < n, M i j ↔ M' i j) (h : Innermost calls M n i) :
    Innermost calls M' n i where
  begins := h.begins
  before := h.before
  unmatched := fun j hj matched => h.unmatched j hj ((same i j hj).mpr matched)
  latest := by
    intro m after before begins
    obtain ⟨j, hj, matched⟩ := h.latest m after before begins
    exact ⟨j, hj, (same m j hj).mp matched⟩

/-- Calls have one matching. -/
theorem IsMatching.unique (h : IsMatching calls M) (h' : IsMatching calls M') : M = M' := by
  have same : ∀ j i, M i j ↔ M' i j := by
    intro j
    induction j using Nat.strong_induction_on with
    | _ j ih =>
      intro i
      rw [h i j, h' i j]
      constructor
      · rintro ⟨ends, innermost⟩
        exact ⟨ends, innermost.congr fun i j hj => ih j hj i⟩
      · rintro ⟨ends, innermost⟩
        exact ⟨ends, innermost.congr fun i j hj => (ih j hj i).symm⟩
  funext i j
  exact propext (same j i)

/-! ### The matching by a list of open beginnings -/

/-- The unmatched beginnings after one more call, which stands at the position. -/
def track (position : Nat) (unmatched : List Nat) : Call → List Nat
  | .beginException _ => position :: unmatched
  | .endException => unmatched.tail
  | .instruction _ _ | .beginCatch _ | .beginFinally | .defineLabel _ | .markLabel _
  | .declareLocal _ _ => unmatched

/-- The positions of the unmatched beginnings, the latest first. -/
def unmatched (calls : List Call) : List Nat :=
  calls.zipIdx.foldl (fun unmatched entry => track entry.2 unmatched entry.1) []

theorem unmatched_snoc (calls : List Call) (call : Call) :
    unmatched (calls ++ [call]) = track calls.length (unmatched calls) call := by
  simp [unmatched, List.zipIdx_append]

/-- The end at `j` is matched with the first of the beginnings that are unmatched there. -/
def Partner (calls : List Call) (i j : Nat) : Prop :=
  EndsAt calls j ∧ (unmatched (calls.take j)).head? = some i

theorem beginsAt_snoc_iff :
    BeginsAt (calls ++ [call]) i ↔
      BeginsAt calls i ∨ i = calls.length ∧ ∃ endLabel, call = .beginException endLabel := by
  unfold BeginsAt
  rcases Nat.lt_trichotomy i calls.length with before | rfl | after
  · simp [List.getElem?_append_left before, before.ne]
  · simp
  · have out : calls.length ≤ i := by omega
    have beyond : (calls ++ [call]).length ≤ i := by simp; omega
    simp [List.getElem?_eq_none out, List.getElem?_eq_none beyond, after.ne']

theorem partner_snoc_of_lt (before : j < calls.length) :
    Partner (calls ++ [call]) i j ↔ Partner calls i j := by
  unfold Partner EndsAt
  rw [List.getElem?_append_left before, List.take_append_of_le_length before.le]

theorem partner_snoc_length :
    Partner (calls ++ [call]) i calls.length ↔
      call = .endException ∧ (unmatched calls).head? = some i := by
  simp [Partner, EndsAt]

theorem lt_of_mem_unmatched (h : i ∈ unmatched calls) : i < calls.length := by
  induction calls using List.reverseRecOn with
  | nil => cases h
  | append_singleton calls call ih =>
    rw [unmatched_snoc] at h
    rw [List.length_append, List.length_singleton]
    cases call with
    | beginException endLabel =>
      obtain rfl | old := List.mem_cons.mp h
      · exact Nat.lt_succ_self _
      · exact Nat.lt_succ_of_lt (ih old)
    | endException => exact Nat.lt_succ_of_lt (ih (List.mem_of_mem_tail h))
    | _ => exact Nat.lt_succ_of_lt (ih h)

theorem unmatched_descending (calls : List Call) : (unmatched calls).Pairwise (· > ·) := by
  induction calls using List.reverseRecOn with
  | nil => exact List.Pairwise.nil
  | append_singleton calls call ih =>
    rw [unmatched_snoc]
    cases call with
    | beginException endLabel =>
      exact List.pairwise_cons.mpr ⟨fun _ old => lt_of_mem_unmatched old, ih⟩
    | endException => exact ih.tail
    | _ => exact ih

/-- The first of the unmatched beginnings is the latest. -/
theorem head?_unmatched_iff :
    (unmatched calls).head? = some i ↔ i ∈ unmatched calls ∧ ∀ m ∈ unmatched calls, m ≤ i := by
  have descending := unmatched_descending calls
  cases listed : unmatched calls with
  | nil => simp
  | cons first others =>
    rw [listed] at descending
    have apart : ∀ m ∈ others, m < first := (List.pairwise_cons.mp descending).1
    simp only [List.head?_cons, Option.some.injEq, List.mem_cons, forall_eq_or_imp]
    constructor
    · rintro rfl
      exact ⟨.inl rfl, Nat.le_refl _, fun m hm => (apart m hm).le⟩
    · rintro ⟨rfl | old, le, -⟩
      · rfl
      · exact absurd (apart i old) (by omega)

/-- The first of the unmatched beginnings is not among the others. -/
theorem mem_tail_unmatched_iff :
    i ∈ (unmatched calls).tail ↔ i ∈ unmatched calls ∧ (unmatched calls).head? ≠ some i := by
  have descending := unmatched_descending calls
  cases open_at : unmatched calls with
  | nil => simp
  | cons first others =>
    rw [open_at] at descending
    have apart : ∀ m ∈ others, m < first := (List.pairwise_cons.mp descending).1
    simp only [List.tail_cons, List.mem_cons, List.head?_cons, ne_eq, Option.some.injEq]
    constructor
    · intro old
      exact ⟨.inr old, (apart i old).ne'⟩
    · rintro ⟨rfl | old, ne⟩
      · exact absurd rfl ne
      · exact old

theorem Partner.lt (h : Partner calls i j) : i < j := by
  have inside := lt_of_mem_unmatched (List.mem_of_mem_head? h.2)
  rw [List.length_take] at inside
  omega

/-- By induction on the calls: only an end takes a beginning from the list, and it is the one that
the end is matched with. -/
theorem mem_unmatched_iff :
    i ∈ unmatched calls ↔ BeginsAt calls i ∧ ∀ j < calls.length, ¬ Partner calls i j := by
  induction calls using List.reverseRecOn with
  | nil => simp [unmatched, BeginsAt]
  | append_singleton calls call ih =>
    have earlier : (∀ j < (calls ++ [call]).length, ¬ Partner (calls ++ [call]) i j) ↔
        (∀ j < calls.length, ¬ Partner calls i j) ∧
          ¬ (call = .endException ∧ (unmatched calls).head? = some i) := by
      rw [← partner_snoc_length, List.length_append, List.length_singleton]
      constructor
      · intro none_at
        refine ⟨fun j hj => ?_, none_at _ (Nat.lt_succ_self _)⟩
        rw [← partner_snoc_of_lt hj]
        exact none_at j (Nat.lt_succ_of_lt hj)
      · rintro ⟨before, last⟩ j hj
        obtain hj | rfl := Nat.lt_succ_iff_lt_or_eq.mp hj
        · rw [partner_snoc_of_lt hj]
          exact before j hj
        · exact last
    rw [unmatched_snoc, earlier, beginsAt_snoc_iff]
    cases call with
    | beginException endLabel =>
      by_cases last : i = calls.length
      · subst last
        have free : ∀ j < calls.length, ¬ Partner calls calls.length j :=
          fun j hj partner => absurd partner.lt (by omega)
        simpa [track] using free
      · simpa [track, last] using ih
    | endException =>
      rw [track, mem_tail_unmatched_iff, ih]
      simp [and_assoc]
    | _ => simpa [track] using ih

theorem beginsAt_take_iff : BeginsAt (calls.take n) i ↔ i < n ∧ BeginsAt calls i := by
  unfold BeginsAt
  rw [List.getElem?_take]
  by_cases before : i < n <;> simp [before]

theorem partner_take_of_lt (before : j < n) : Partner (calls.take n) i j ↔ Partner calls i j := by
  unfold Partner EndsAt
  rw [List.getElem?_take_of_lt before, List.take_take, Nat.min_eq_left before.le]

/-- The first of the unmatched beginnings is the innermost open region. -/
theorem head?_unmatched_take_iff (within : n ≤ calls.length) :
    (unmatched (calls.take n)).head? = some i ↔ Innermost calls (Partner calls) n i := by
  have length : (calls.take n).length = n := by rw [List.length_take, Nat.min_eq_left within]
  have mem : ∀ m, m ∈ unmatched (calls.take n) ↔
      (m < n ∧ BeginsAt calls m) ∧ ∀ j < n, ¬ Partner calls m j := by
    intro m
    rw [mem_unmatched_iff, beginsAt_take_iff, length]
    refine and_congr_right fun _ => forall₂_congr fun j hj => ?_
    rw [partner_take_of_lt hj]
  rw [head?_unmatched_iff]
  constructor
  · rintro ⟨listed, largest⟩
    obtain ⟨⟨before, begins⟩, unmatched⟩ := (mem i).mp listed
    refine ⟨begins, before, unmatched, ?_⟩
    intro m after inside own
    by_contra none_at
    push Not at none_at
    have le := largest m ((mem m).mpr ⟨⟨inside, own⟩, none_at⟩)
    omega
  · intro innermost
    refine ⟨(mem i).mpr ⟨⟨innermost.before, innermost.begins⟩, innermost.unmatched⟩, ?_⟩
    intro m listed
    obtain ⟨⟨inside, own⟩, none_at⟩ := (mem m).mp listed
    by_contra after
    obtain ⟨j, hj, partner⟩ := innermost.latest m (by omega) inside own
    exact none_at j hj partner

theorem isMatching_partner (calls : List Call) : IsMatching calls (Partner calls) := by
  intro i j
  unfold Partner
  refine and_congr_right fun ends => ?_
  have within : j ≤ calls.length := (List.getElem?_eq_some_iff.mp ends).1.le
  exact head?_unmatched_take_iff within

/-- What was the innermost open region stays so when more calls are made. -/
theorem innermost_snoc_iff (call : Call) (within : n ≤ calls.length) :
    Innermost (calls ++ [call]) (Partner (calls ++ [call])) n i ↔
      Innermost calls (Partner calls) n i := by
  have longer : n ≤ (calls ++ [call]).length := by
    rw [List.length_append]
    omega
  rw [← head?_unmatched_take_iff within, ← head?_unmatched_take_iff longer,
    List.take_append_of_le_length within]

theorem latestIsFinally_snoc_of_le (call : Call) (within : n ≤ calls.length) :
    LatestIsFinally (calls ++ [call]) (Partner (calls ++ [call])) n i ↔
      LatestIsFinally calls (Partner calls) n i := by
  have same : ∀ l < n, (calls ++ [call])[l]? = calls[l]? :=
    fun l hl => List.getElem?_append_left (by omega)
  have own : ∀ l < n, (Innermost (calls ++ [call]) (Partner (calls ++ [call])) l i ↔
      Innermost calls (Partner calls) l i) := fun l hl => innermost_snoc_iff call (by omega)
  unfold LatestIsFinally
  refine exists_congr fun h => and_congr_right fun hh => ?_
  rw [own h hh, same h hh]
  refine and_congr_right fun _ => and_congr_right fun _ => ?_
  refine forall_congr' fun l => forall₂_congr fun _ hl => ?_
  rw [own l hl, same l hl]

/-- A handler that has just been given to the innermost region is the latest of it. -/
theorem latestIsFinally_snoc_of_handler (own : Innermost calls (Partner calls) calls.length i)
    (handler : call.isHandler = true) :
    LatestIsFinally (calls ++ [call]) (Partner (calls ++ [call])) (calls.length + 1) i ↔
      call = .beginFinally := by
  have here := (innermost_snoc_iff call (Nat.le_refl calls.length)).mpr own
  constructor
  · rintro ⟨h, hh, -, finallyAt, later⟩
    obtain earlier | rfl := Nat.lt_succ_iff_lt_or_eq.mp hh
    · have none_later := later calls.length earlier (Nat.lt_succ_self _) here call (by simp)
      rw [handler] at none_later
      cases none_later
    · simpa using finallyAt
  · rintro rfl
    refine ⟨calls.length, Nat.lt_succ_self _, here, by simp, ?_⟩
    intro l after before
    omega

/-- Any other call leaves the latest handler of a region what it was. -/
theorem latestIsFinally_snoc_of_not
    (other : Innermost calls (Partner calls) calls.length i → call.isHandler = false) :
    LatestIsFinally (calls ++ [call]) (Partner (calls ++ [call])) (calls.length + 1) i ↔
      LatestIsFinally calls (Partner calls) calls.length i := by
  rw [← latestIsFinally_snoc_of_le call (Nat.le_refl calls.length)]
  have here := innermost_snoc_iff (i := i) call (Nat.le_refl calls.length)
  constructor
  · rintro ⟨h, hh, own, finallyAt, later⟩
    obtain earlier | rfl := Nat.lt_succ_iff_lt_or_eq.mp hh
    · exact ⟨h, earlier, own, finallyAt, fun l after before => later l after (by omega)⟩
    · obtain rfl : call = .beginFinally := by simpa using finallyAt
      exact absurd (other (here.mp own)) (by decide)
  · rintro ⟨h, hh, own, finallyAt, later⟩
    refine ⟨h, by omega, own, finallyAt, ?_⟩
    intro l after before inner last at_l
    obtain earlier | rfl := Nat.lt_succ_iff_lt_or_eq.mp before
    · exact later l after earlier inner last at_l
    · obtain rfl : call = last := by simpa using at_l
      exact other (here.mp inner)

theorem tallyAll_snoc (counted : Nat × List Bool) (calls : List Call) (call : Call) :
    tallyAll counted (calls ++ [call]) = tally (tallyAll counted calls) call := by
  rw [tallyAll_append]
  rfl

/-- A region that has been begun by the last call has no handler yet. -/
theorem not_latestIsFinally_length : ¬ LatestIsFinally calls M n n := by
  rintro ⟨h, hh, own, -⟩
  exact absurd own.before (by omega)

/-! ### What a target knows of its open regions -/

open scoped Classical in
/-- For each of the regions, whether the latest handler is a finally. -/
noncomputable def handlerFlags (calls : List Call) (regions : List Nat) : List Bool :=
  regions.map fun i => decide (LatestIsFinally calls (Partner calls) calls.length i)

theorem innermost_length_iff :
    Innermost calls (Partner calls) calls.length i ↔ (unmatched calls).head? = some i := by
  rw [← head?_unmatched_take_iff (Nat.le_refl _), List.take_length]

theorem handlerFlags_snoc_of_not {regions : List Nat}
    (other : ∀ i ∈ regions, (unmatched calls).head? = some i → call.isHandler = false) :
    handlerFlags (calls ++ [call]) regions = handlerFlags calls regions := by
  unfold handlerFlags
  refine List.map_congr_left fun i hi => decide_eq_decide.mpr ?_
  rw [List.length_append, List.length_singleton]
  exact latestIsFinally_snoc_of_not fun own => other i hi (innermost_length_iff.mp own)

/-- A handler changes the flag of the innermost region and no other. -/
theorem handlerFlags_snoc_of_handler {isFinally : Bool} (handler : call.isHandler = true)
    (kind : call = .beginFinally ↔ isFinally = true) :
    handlerFlags (calls ++ [call]) (unmatched calls)
      = Recorder.setHandler isFinally (handlerFlags calls (unmatched calls)) := by
  cases listed : unmatched calls with
  | nil => rfl
  | cons first others =>
    have head : (unmatched calls).head? = some first := by rw [listed, List.head?_cons]
    have inner : LatestIsFinally (calls ++ [call]) (Partner (calls ++ [call]))
        (calls ++ [call]).length first ↔ isFinally = true := by
      rw [List.length_append, List.length_singleton,
        latestIsFinally_snoc_of_handler (innermost_length_iff.mpr head) handler, kind]
    have outer : handlerFlags (calls ++ [call]) others = handlerFlags calls others := by
      apply handlerFlags_snoc_of_not
      intro i hi first_is
      have tail : i ∈ (unmatched calls).tail := by rw [listed, List.tail_cons]; exact hi
      exact absurd first_is (mem_tail_unmatched_iff.mp tail).2
    have own : handlerFlags (calls ++ [call]) (first :: others)
        = isFinally :: handlerFlags (calls ++ [call]) others := by
      simp only [handlerFlags, List.map_cons, inner, Bool.decide_eq_true]
    rw [own, outer]
    rfl

/-- By induction on the calls: a target knows of each region that is open, the innermost first,
whether the latest handler is a finally. -/
theorem openRegions_tallyAll (calls : List Call) :
    (tallyAll (0, []) calls).2 = handlerFlags calls (unmatched calls) := by
  induction calls using List.reverseRecOn with
  | nil => rfl
  | append_singleton calls call ih =>
    rw [tallyAll_snoc, unmatched_snoc]
    cases call with
    | beginException endLabel =>
      have outer : handlerFlags (calls ++ [.beginException endLabel]) (unmatched calls)
          = handlerFlags calls (unmatched calls) := handlerFlags_snoc_of_not fun _ _ _ => rfl
      have own : ¬ LatestIsFinally (calls ++ [.beginException endLabel])
          (Partner (calls ++ [.beginException endLabel])) (calls.length + 1) calls.length := by
        rw [latestIsFinally_snoc_of_not fun _ => rfl]
        exact not_latestIsFinally_length
      rw [tally, ih, ← outer]
      simp [track, handlerFlags, own]
    | endException =>
      have inner : handlerFlags (calls ++ [.endException]) (unmatched calls).tail
          = handlerFlags calls (unmatched calls).tail := handlerFlags_snoc_of_not fun _ _ _ => rfl
      rw [tally, track, ih, inner, handlerFlags, handlerFlags, List.map_tail]
    | beginCatch exception =>
      simp only [tally, track, ih]
      exact (handlerFlags_snoc_of_handler rfl (by simp)).symm
    | beginFinally =>
      simp only [tally, track, ih]
      exact (handlerFlags_snoc_of_handler rfl (by simp)).symm
    | _ =>
      simp only [tally, track, ih]
      exact (handlerFlags_snoc_of_not fun _ _ _ => rfl).symm

/-- A target is in a finally handler if the innermost open region has been given one last. -/
theorem head?_openRegions_tallyAll :
    (tallyAll (0, []) calls).2.head? = some true ↔
      ∃ i, Innermost calls (Partner calls) calls.length i ∧
        LatestIsFinally calls (Partner calls) calls.length i := by
  simp [openRegions_tallyAll, handlerFlags, innermost_length_iff]

/-! ### The bytes of the calls -/

/-- Only the end of a region can take more than its kind tells: the byte of an `endfinally`. -/
theorem tally_bytes (counted : Nat × List Bool) (call : Call) :
    (tally counted call).1 = counted.1 + call.bytes
      + if call = .endException ∧ counted.2.head? = some true then 1 else 0 := by
  obtain ⟨size, openRegions⟩ := counted
  cases call with
  | instruction op operand => cases operand <;> rfl
  | endException =>
    match openRegions with
    | [] | true :: _ | false :: _ => rfl
  | _ => rfl

theorem ClosesFinally.lt_length (h : ClosesFinally calls (Partner calls) j) :
    j < calls.length := by
  obtain ⟨i, partner, -⟩ := h
  exact (List.getElem?_eq_some_iff.mp partner.1).1

theorem closesFinally_snoc_of_lt (before : j < calls.length) :
    ClosesFinally (calls ++ [call]) (Partner (calls ++ [call])) j ↔
      ClosesFinally calls (Partner calls) j := by
  unfold ClosesFinally
  refine exists_congr fun i => ?_
  rw [partner_snoc_of_lt before, latestIsFinally_snoc_of_le call before.le]

theorem closesFinally_snoc_length :
    ClosesFinally (calls ++ [call]) (Partner (calls ++ [call])) calls.length ↔
      call = .endException ∧ (tallyAll (0, []) calls).2.head? = some true := by
  rw [head?_openRegions_tallyAll]
  unfold ClosesFinally
  simp only [partner_snoc_length, latestIsFinally_snoc_of_le _ (Nat.le_refl _),
    innermost_length_iff, and_assoc, exists_and_left]

/-- One more call closes nothing but what it closes itself. -/
theorem closesFinally_snoc_iff :
    ClosesFinally (calls ++ [call]) (Partner (calls ++ [call])) j ↔
      ClosesFinally calls (Partner calls) j ∨
        j = calls.length ∧ call = .endException ∧
          (tallyAll (0, []) calls).2.head? = some true := by
  constructor
  · intro closes
    have inside := closes.lt_length
    rw [List.length_append, List.length_singleton] at inside
    obtain before | rfl := Nat.lt_succ_iff_lt_or_eq.mp inside
    · exact .inl ((closesFinally_snoc_of_lt before).mp closes)
    · exact .inr ⟨rfl, closesFinally_snoc_length.mp closes⟩
  · rintro (closes | ⟨rfl, last⟩)
    · exact (closesFinally_snoc_of_lt closes.lt_length).mpr closes
    · exact closesFinally_snoc_length.mpr last

/-- By induction on the calls: one more end adds a byte exactly if it closes a finally. -/
theorem exists_closing (calls : List Call) :
    ∃ closing : Finset Nat, (∀ j, j ∈ closing ↔ ClosesFinally calls (Partner calls) j) ∧
      (tallyAll (0, []) calls).1 = (calls.map bytes).sum + closing.card := by
  induction calls using List.reverseRecOn with
  | nil =>
    refine ⟨∅, fun j => ?_, rfl⟩
    simp only [Finset.notMem_empty, false_iff]
    exact fun closes => absurd closes.lt_length (Nat.not_lt_zero j)
  | append_singleton calls call ih =>
    obtain ⟨closing, mem, size⟩ := ih
    have sum : ((calls ++ [call]).map bytes).sum = (calls.map bytes).sum + call.bytes := by simp
    rw [tallyAll_snoc, tally_bytes, size, sum]
    by_cases last : call = .endException ∧ (tallyAll (0, []) calls).2.head? = some true
    · have new : calls.length ∉ closing := by
        rw [mem]
        exact fun closes => absurd closes.lt_length (Nat.lt_irrefl _)
      refine ⟨insert calls.length closing, fun j => ?_, ?_⟩
      · rw [Finset.mem_insert, mem, closesFinally_snoc_iff, or_comm, and_iff_left last]
      · rw [Finset.card_insert_of_notMem new, if_pos last]
        omega
    · refine ⟨closing, fun j => ?_, ?_⟩
      · rw [mem, closesFinally_snoc_iff]
        simp only [last, and_false, or_false]
      · rw [if_neg last]
        omega

end Call

namespace Recorder

/-- Receives the requests in order. -/
def performAll (r : Recorder) (requests : List Request) : Recorder :=
  requests.foldl (fun r request => (r.perform request).2) r

theorem Tallied.perform {r : Recorder} (h : r.Tallied) (request : Request) :
    (r.perform request).2.Tallied := by
  apply h.extend (r.records_perform request).calls
  cases request with
  | instruction op operand => cases operand <;> rfl
  | _ => rfl

theorem Tallied.performAll {r : Recorder} (h : r.Tallied) (requests : List Request) :
    (r.performAll requests).Tallied := by
  induction requests generalizing r with
  | nil => exact h
  | cons request requests ih => exact ih (h.perform request)

theorem performAll_snoc (r : Recorder) (requests : List Request) (request : Request) :
    r.performAll (requests ++ [request]) = ((r.performAll requests).perform request).2 :=
  List.foldl_concat ..

theorem length_calls_performAll (requests : List Request) :
    (new.performAll requests).calls.length = requests.length := by
  induction requests using List.reverseRecOn with
  | nil => rfl
  | append_singleton requests request ih =>
    rw [performAll_snoc, (records_perform _ request).calls, List.length_append, List.length_append,
      ih]
    rfl

/-- By induction on the requests: each is recorded in its place, as what it is to the target by
then. -/
theorem getElem?_calls_performAll (requests : List Request) (i : Nat) :
    (new.performAll requests).calls[i]?
      = requests[i]?.map (new.performAll (requests.take i)).callFor := by
  induction requests using List.reverseRecOn with
  | nil => rfl
  | append_singleton requests request ih =>
    have length := length_calls_performAll requests
    rw [performAll_snoc, (records_perform _ request).calls]
    rcases Nat.lt_trichotomy i requests.length with before | rfl | after
    · rw [List.getElem?_append_left (length ▸ before), List.getElem?_append_left before, ih,
        List.take_append_of_le_length before.le]
    · rw [← length, List.getElem?_concat_length, length, List.getElem?_concat_length,
        List.take_left]
      rfl
    · have beyond : (requests ++ [request]).length ≤ i := by
        rw [List.length_append]
        exact after
      rw [List.getElem?_eq_none beyond, List.getElem?_eq_none]
      · rfl
      · rw [List.length_append, length]
        exact after

/-- A target that has received requests in any order has recorded them one by one. It has counted
the bytes of its calls by their kinds, and one byte more for each end that is matched with a region
whose latest handler is a finally. An end is matched with the latest beginning before it that no
earlier end is matched with, and there is one such matching. -/
theorem codeSize_performAll (requests : List Request) :
    let calls := (new.performAll requests).calls
    (∀ i, calls[i]? = requests[i]?.map (new.performAll (requests.take i)).callFor) ∧
      ∃ Matched, (∀ M, Call.IsMatching calls M ↔ M = Matched) ∧
        ∃ closing : Finset Nat, (∀ j, j ∈ closing ↔ Call.ClosesFinally calls Matched j) ∧
          (new.performAll requests).codeSize = (calls.map Call.bytes).sum + closing.card := by
  intro calls
  have tallied : (new.performAll requests).Tallied := tallied_new.performAll requests
  refine ⟨getElem?_calls_performAll requests, Call.Partner calls, fun M => ?_, ?_⟩
  · constructor
    · intro matching
      exact matching.unique (Call.isMatching_partner calls)
    · rintro rfl
      exact Call.isMatching_partner calls
  · obtain ⟨closing, mem, size⟩ := Call.exists_closing calls
    refine ⟨closing, mem, ?_⟩
    rw [← size]
    exact congrArg Prod.fst tallied

end Recorder

end CilBuffer
