import CilBuffer.Proofs.OwnCalls

/-!
# Nested regions

A list of steps is nested if its regions are: a region has a body, then catch handlers, then at most
one finally handler, and bodies hold regions in turn. A target that opens each region at its own
step counts for a nested list the sizes of its steps, and is left with the regions that it had open.
Inside a region the two counts differ: the `endfinally` is in the size of the step that ends the
handler, and is counted by the target at the end of the region.
-/

namespace CilBuffer

namespace Step

/-- The step is the beginning or the end of a region or of a handler. -/
def marksRegion : Step → Bool
  | .beginException _ | .beginCatch _ | .endException | .endCatch | .beginFinally
  | .endFinally => true
  | _ => false

/-- What a target that opens each region at its own step has counted, and its open regions. -/
def account (current : Opcodes) (counted : Nat × List Bool) (step : Step) : Nat × List Bool :=
  (counted.1 + step.ownSize current counted.2,
    match step with
    | .beginException _ => false :: counted.2
    | step => step.ownRegions counted.2)

/-- What is counted for the steps in order. -/
def accountAll (current : Opcodes) (counted : Nat × List Bool) (steps : List Step) :
    Nat × List Bool :=
  steps.foldl (account current) counted

end Step

/-- A part of a region: a body, or the handlers that follow one. -/
inductive Part where
  | body
  | handlers

/-- The steps of a body, and the handlers of one region. -/
inductive Nested : Part → List Step → Prop where
  | nil : Nested .body []
  | cons {step : Step} {steps : List Step} :
      step.marksRegion = false → Nested .body steps → Nested .body (step :: steps)
  | region {block : ExceptionBlock} {body handlers steps : List Step} :
      Nested .body body → Nested .handlers handlers → Nested .body steps →
      Nested .body (.beginException block :: (body ++ handlers ++ .endException :: steps))
  | unhandled : Nested .handlers []
  | catchHandler {exception : TypeRef} {body handlers : List Step} :
      Nested .body body → Nested .handlers handlers →
      Nested .handlers (.beginCatch exception :: (body ++ .endCatch :: handlers))
  | finallyHandler {body : List Step} :
      Nested .body body → Nested .handlers (.beginFinally :: (body ++ [.endFinally]))

namespace Step

variable (current : Opcodes)

def totalSize (steps : List Step) : Nat := (steps.map (·.size current)).sum

@[simp] theorem totalSize_nil : totalSize current [] = 0 := rfl

@[simp] theorem totalSize_cons (step : Step) (steps : List Step) :
    totalSize current (step :: steps) = step.size current + totalSize current steps :=
  List.sum_cons

@[simp] theorem totalSize_append (xs ys : List Step) :
    totalSize current (xs ++ ys) = totalSize current xs + totalSize current ys := by
  simp [totalSize]

theorem accountAll_cons (counted : Nat × List Bool) (step : Step) (steps : List Step) :
    accountAll current counted (step :: steps)
      = accountAll current (step.account current counted) steps :=
  rfl

theorem accountAll_append (counted : Nat × List Bool) (xs ys : List Step) :
    accountAll current counted (xs ++ ys)
      = accountAll current (accountAll current counted xs) ys :=
  List.foldl_append

theorem account_of_not_marksRegion {step : Step} (h : step.marksRegion = false)
    (counted : Nat × List Bool) :
    step.account current counted = (counted.1 + step.size current, counted.2) := by
  cases step with
  | beginException _ | beginCatch _ | endException | endCatch | beginFinally | endFinally => cases h
  | _ => rfl

/-- What a target counts for a part of a region. After the handlers, the open region knows whether
an `endfinally` is still to be counted. -/
def Counted : Part → List Step → Prop
  | .body, steps => ∀ n outer,
    accountAll current (n, outer) steps = (n + totalSize current steps, outer)
  | .handlers, steps => ∀ n outer, ∃ m isFinally,
    accountAll current (n, false :: outer) steps = (m, isFinally :: outer) ∧
      m + Recorder.endSize (isFinally :: outer)
        = n + totalSize current steps + Marker.endException.size

end Step

/-- By induction on the nesting: what a body adds is the size of its steps. -/
theorem Nested.counted {part : Part} {steps : List Step} (h : Nested part steps)
    (current : Opcodes) : Step.Counted current part steps := by
  induction h with
  | nil => exact fun _ _ => rfl
  | cons plain _ ih =>
    intro n outer
    rw [Step.accountAll_cons, Step.account_of_not_marksRegion current plain, ih]
    simp [Nat.add_assoc]
  | @region block body handlers steps _ _ _ body_ih handlers_ih steps_ih =>
    intro n outer
    have opened : (Step.beginException block).account current (n, outer)
        = (n, false :: outer) := rfl
    obtain ⟨m, isFinally, handled, count⟩ :=
      handlers_ih (n + Step.totalSize current body) outer
    have closed : Step.endException.account current (m, isFinally :: outer)
        = (m + Recorder.endSize (isFinally :: outer), outer) := rfl
    rw [Step.accountAll_cons, opened, Step.accountAll_append, Step.accountAll_append, body_ih,
      handled, Step.accountAll_cons, closed, steps_ih, count]
    have start : (Step.beginException block).size current = 0 := rfl
    have stop : Step.endException.size current = Marker.endException.size := rfl
    simp only [Step.totalSize_cons, Step.totalSize_append, start, stop, Prod.mk.injEq, and_true]
    omega
  | unhandled => exact fun n outer => ⟨n, false, rfl, rfl⟩
  | @catchHandler exception body handlers _ _ body_ih handlers_ih =>
    intro n outer
    have begun : (Step.beginCatch exception).account current (n, false :: outer)
        = (n + Marker.beginCatch.size, false :: outer) := rfl
    have ended : ∀ m, Step.endCatch.account current (m, false :: outer) = (m, false :: outer) :=
      fun _ => rfl
    obtain ⟨m, isFinally, handled, count⟩ :=
      handlers_ih (n + Marker.beginCatch.size + Step.totalSize current body) outer
    refine ⟨m, isFinally, ?_, ?_⟩
    · rw [Step.accountAll_cons, begun, Step.accountAll_append, body_ih, Step.accountAll_cons, ended,
        handled]
    · have start : (Step.beginCatch exception).size current = Marker.beginCatch.size := rfl
      have stop : Step.endCatch.size current = 0 := rfl
      simp only [Step.totalSize_cons, Step.totalSize_append, start, stop]
      omega
  | @finallyHandler body _ body_ih =>
    intro n outer
    have begun : Step.beginFinally.account current (n, false :: outer)
        = (n + Marker.beginFinally.size, true :: outer) := rfl
    refine ⟨n + Marker.beginFinally.size + Step.totalSize current body, true, ?_, ?_⟩
    · rw [Step.accountAll_cons, begun, Step.accountAll_append, body_ih]
      rfl
    · have start : Step.beginFinally.size current = Marker.beginFinally.size := rfl
      have stop : Step.endFinally.size current = Marker.endFinally.size := rfl
      simp only [Step.totalSize_cons, Step.totalSize_append, Step.totalSize_nil, start, stop,
        Recorder.endSize]
      omega

end CilBuffer
