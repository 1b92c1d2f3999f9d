import Depot.Logging.Configuration
/-!
# When standard output is free of log lines

Handlers come from anywhere: some are there at the start, others are added later, under any name and
with any sink. Each time that logging is configured, standard output should be left to the
transport. `occupied_after_configure_iff` says for every history of such steps when it is.

To configure logging takes one of two ways. Where no handler has the name of the one for standard
error, the handlers that write to standard output are removed. Where one has it, they stay, whoever
has given it that name (`occupied_ensureHandler_iff`). After the first time the name is taken for
good (`nameTaken_afterAll`), so what writes to standard output is removed then or never: a history
falls into what was there by then and what was added later.
-/

namespace Depot.Logging

/-- What happens to the handlers: somebody adds one, or logging is configured. -/
inductive Step where
  | add (name : Option String) (sink : Sink)
  | configure (level : String) (json : Bool)
  deriving DecidableEq, Repr

namespace Step

/-- The handler that is added, if one is. -/
def added? : Step → Option Handler
  | add name sink => some ⟨name, sink, false⟩
  | configure _ _ => none

/-- Is a handler added? -/
def isAddition (step : Step) : Bool := step.added?.isSome

end Step

/-- The state after a step. -/
def State.after (s : State) : Step → State
  | .add name sink => add s name sink
  | .configure level json => configure s level json

/-- The state after steps. -/
def State.afterAll (s : State) (steps : List Step) : State := steps.foldl State.after s

/-- The handlers that are added before logging is configured for the first time. -/
def addedFirst (steps : List Step) : List Handler :=
  (steps.takeWhile Step.isAddition).filterMap Step.added?

/-- The handlers that are added after logging was configured for the first time. -/
def addedLater (steps : List Step) : List Handler :=
  (steps.dropWhile Step.isAddition).filterMap Step.added?

/-- One of the handlers writes to standard output. -/
def Occupied (handlers : List Handler) : Prop := ∃ h ∈ handlers, h.sink = .standardOutput

/-- One of the handlers has the name of the one for standard error. -/
def NameTaken (handlers : List Handler) : Prop := ∃ h ∈ handlers, h.isOurs = true

instance (handlers : List Handler) : Decidable (Occupied handlers) :=
  inferInstanceAs (Decidable (∃ h ∈ handlers, h.sink = .standardOutput))

section Lists

variable {hs ks : List Handler}

@[simp] theorem not_occupied_nil : ¬ Occupied [] := fun ⟨_, h, _⟩ => nomatch h

@[simp] theorem occupied_cons {h : Handler} :
    Occupied (h :: hs) ↔ h.sink = .standardOutput ∨ Occupied hs := by
  simp only [Occupied, List.mem_cons, or_and_right, exists_or, exists_eq_left]

@[simp] theorem occupied_append : Occupied (hs ++ ks) ↔ Occupied hs ∨ Occupied ks := by
  simp only [Occupied, List.mem_append, or_and_right, exists_or]

@[simp] theorem nameTaken_cons {h : Handler} :
    NameTaken (h :: hs) ↔ h.isOurs = true ∨ NameTaken hs := by
  simp only [NameTaken, List.mem_cons, or_and_right, exists_or, exists_eq_left]

@[simp] theorem nameTaken_append : NameTaken (hs ++ ks) ↔ NameTaken hs ∨ NameTaken ks := by
  simp only [NameTaken, List.mem_append, or_and_right, exists_or]

/-! ### One step -/

variable {json : Bool}

/-- A format changes neither names nor sinks. -/
theorem setFormat_iff : (Occupied (setFormat json hs) ↔ Occupied hs) ∧
    (NameTaken (setFormat json hs) ↔ NameTaken hs) := by
  induction hs with
  | nil => exact ⟨Iff.rfl, Iff.rfl⟩
  | cons h hs ih =>
    rw [setFormat]
    split
    · exact ⟨by simp only [occupied_cons], by simp only [nameTaken_cons, Handler.isOurs]⟩
    · simp only [occupied_cons, nameTaken_cons, ih.1, ih.2, and_self]

theorem any_isOurs_iff : hs.any Handler.isOurs = true ↔ NameTaken hs := List.any_eq_true

/-- There is a handler for standard error afterwards. -/
theorem nameTaken_ensureHandler : NameTaken (ensureHandler json hs) := by
  unfold ensureHandler
  split
  · next h => exact setFormat_iff.2.2 (any_isOurs_iff.1 h)
  · exact nameTaken_append.2 (.inr ⟨_, List.mem_singleton_self _, beq_self_eq_true _⟩)

/-- Standard output stays occupied exactly if the name of the handler for standard error is taken
already. -/
theorem occupied_ensureHandler_iff :
    Occupied (ensureHandler json hs) ↔ NameTaken hs ∧ Occupied hs := by
  unfold ensureHandler
  split
  · next h => rw [setFormat_iff.1, and_iff_right (any_isOurs_iff.1 h)]
  · next h =>
    -- what writes there has been removed, and the new handler does not
    rw [any_isOurs_iff] at h
    refine iff_of_false ?_ fun hboth => h hboth.1
    rintro ⟨k, hk, hsink⟩
    rcases List.mem_append.1 hk with hk | hk
    · have hother := (List.mem_filter.1 hk).2
      rw [hsink] at hother
      cases hother
    · rw [List.mem_singleton.1 hk] at hsink
      cases hsink

end Lists

/-! ### Histories -/

variable {s : State}

theorem handlers_after_add (s : State) (name : Option String) (sink : Sink) :
    (s.after (.add name sink)).handlers = s.handlers ++ [⟨name, sink, false⟩] := rfl

theorem handlers_after_configure (s : State) (level : String) (json : Bool) :
    (s.after (.configure level json)).handlers = ensureHandler json s.handlers := rfl

/-- No step frees the name of the handler for standard error. -/
theorem nameTaken_after (h : NameTaken s.handlers) (step : Step) :
    NameTaken (s.after step).handlers := by
  cases step with
  | add name sink => exact nameTaken_append.2 (.inl h)
  | configure level json => exact nameTaken_ensureHandler

/-- Once the name is taken, it stays taken. -/
theorem nameTaken_afterAll (h : NameTaken s.handlers) (steps : List Step) :
    NameTaken (s.afterAll steps).handlers := by
  induction steps generalizing s with
  | nil => exact h
  | cons step steps ih => exact ih (nameTaken_after h step)

/-- Once the name is taken, whatever writes to standard output stays, and what is added stays. -/
theorem occupied_afterAll_iff (h : NameTaken s.handlers) (steps : List Step) :
    Occupied (s.afterAll steps).handlers ↔
      Occupied s.handlers ∨ Occupied (steps.filterMap Step.added?) := by
  induction steps generalizing s with
  | nil => exact (or_iff_left not_occupied_nil).symm
  | cons step steps ih =>
    -- with the name taken, a step adds to what writes there and never takes from it
    have hrest := ih (nameTaken_after h step)
    cases step with
    | add name sink =>
      rw [handlers_after_add, occupied_append, or_assoc, ← occupied_append] at hrest
      exact hrest
    | configure level json =>
      rw [handlers_after_configure, occupied_ensureHandler_iff, and_iff_right h] at hrest
      exact hrest

/-- Additions put their handlers at the end. -/
theorem handlers_afterAll_additions {steps : List Step}
    (h : ∀ step ∈ steps, step.isAddition = true) :
    (s.afterAll steps).handlers = s.handlers ++ steps.filterMap Step.added? := by
  induction steps generalizing s with
  | nil => exact (List.append_nil _).symm
  | cons step steps ih =>
    have hrest := ih (s := s.after step)
      fun other hother => h other (List.mem_cons_of_mem step hother)
    cases step with
    | add name sink =>
      rw [handlers_after_add, List.append_assoc] at hrest
      exact hrest
    | configure level json => exact nomatch h _ List.mem_cons_self

/-- **When standard output is free.** Right after logging was configured, at any time of any
history, a handler writes to standard output exactly if one that does was added after logging had
been configured for the first time, or was there by then while the name of the handler for standard
error was taken. -/
theorem occupied_after_configure_iff (s : State) (steps : List Step) (level : String)
    (json : Bool) :
    Occupied (s.afterAll (steps ++ [.configure level json])).handlers ↔
      Occupied (addedLater steps) ∨
        NameTaken (s.handlers ++ addedFirst steps) ∧ Occupied (s.handlers ++ addedFirst steps) := by
  have hnow : Occupied (s.afterAll (steps ++ [.configure level json])).handlers ↔
      NameTaken (s.afterAll steps).handlers ∧ Occupied (s.afterAll steps).handlers := by
    unfold State.afterAll
    rw [List.foldl_append]
    exact occupied_ensureHandler_iff
  -- what was there when logging was configured for the first time
  obtain ⟨first, hfirst⟩ : ∃ first, first = s.afterAll (steps.takeWhile Step.isAddition) :=
    ⟨_, rfl⟩
  have hhandlers : first.handlers = s.handlers ++ addedFirst steps := by
    rw [hfirst]
    exact handlers_afterAll_additions (List.all_eq_true.1 List.all_takeWhile)
  have hsplit : s.afterAll steps = first.afterAll (steps.dropWhile Step.isAddition) := by
    rw [hfirst]
    unfold State.afterAll
    rw [← List.foldl_append, List.takeWhile_append_dropWhile]
  rw [hnow, hsplit, ← hhandlers]
  unfold addedLater
  cases hlater : steps.dropWhile Step.isAddition with
  | nil =>
    -- logging was not configured before, so this is the first time
    exact (or_iff_right not_occupied_nil).symm
  | cons step later =>
    have hstep : step.isAddition = false := by
      have hhead := List.head?_dropWhile_not Step.isAddition steps
      rw [hlater] at hhead
      simpa using hhead
    cases step with
    | add name sink => cases hstep
    | configure level' json' =>
      -- from the first time on the name is taken, also now
      have htaken : NameTaken (first.after (.configure level' json')).handlers :=
        nameTaken_ensureHandler
      have hoccupied := occupied_afterAll_iff htaken later
      rw [handlers_after_configure, occupied_ensureHandler_iff] at hoccupied
      rw [or_comm]
      exact (and_iff_right (nameTaken_afterAll htaken later)).trans hoccupied

example : Occupied (State.afterAll ⟨30, 30, 30, []⟩
    [.configure "INFO" false, .add (some "x") .standardOutput, .configure "INFO" false]).handlers :=
  by decide

end Depot.Logging
