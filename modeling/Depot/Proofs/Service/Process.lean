import Depot.Service.Tools
/-!
# Processes and calls

A process has tools, and a memory of what it has read; a call of a tool changes both. The process
that was just started has used none of its tools. Work of the tools is put together step by step,
and so is what comes of it in a process.
-/

namespace Depot

/-- A call of a tool. -/
inductive Call where
  /-- To resolve the artifact that a text names. -/
  | resolve (coordinate : String)
  /-- To tell the identities to which the coordinate that a text names is mapped. -/
  | lookup (coordinate : String)

/-- What a call answers. -/
inductive Answer where
  | resolution (resolution : Resolution)
  | targets (found : MappingLookup)

/-- The work of a call. -/
def Call.work : Call → Tools.Answering Answer
  | .resolve s => Answer.resolution <$> Tools.resolveArtifact s
  | .lookup s => Answer.targets <$> Tools.lookupMapping s

/-- A process: its tools, and what it remembers. -/
structure Process where
  tools : Tools
  memory : Memory

namespace Process

variable {α β : Type}

/-- A process that was started with settings over some files, and has not been called: its tools
are new. -/
def start (t : FileTree) (settings : Settings) : Process :=
  ⟨⟨settings, ⟨0⟩, none⟩, { files := t, loaders := 1 }⟩

example (t : FileTree) (settings : Settings) :
    (Tools.new settings).outcome { files := t } =
      (.ok (start t settings).tools, (start t settings).memory) := rfl

/-- What comes of work in a process, and the process after it. -/
def run (p : Process) (work : Tools.Answering α) : Except ToolError α × Process :=
  let done := (work.run.run p.tools).run p.memory
  (done.1.1, ⟨done.1.2, done.2⟩)

/-- A call, and the process after it. -/
def call (p : Process) (c : Call) : Except ToolError Answer × Process := p.run c.work

/-- The answers to calls, one after the other. -/
def answers (p : Process) : List Call → List (Except ToolError Answer)
  | [] => []
  | c :: calls => (p.call c).1 :: (p.call c).2.answers calls

/-- Work goes on from what came of the work before. -/
theorem run_bind_of_ok {p q : Process} {work : Tools.Answering α} {a : α}
    (h : p.run work = (.ok a, q)) (next : α → Tools.Answering β) :
    p.run (work >>= next) = q.run (next a) := by
  unfold run at *
  rw [ExceptT.run_bind, StateT.run_bind, StateT.run_bind]
  rcases hdone : (work.run.run p.tools).run p.memory with ⟨⟨outcome, tools⟩, memory⟩
  rw [hdone] at h
  cases h
  rfl

/-- Work that fails ends there. -/
theorem run_bind_of_error {p q : Process} {work : Tools.Answering α} {e : ToolError}
    (h : p.run work = (.error e, q)) (next : α → Tools.Answering β) :
    p.run (work >>= next) = (.error e, q) := by
  unfold run at *
  rw [ExceptT.run_bind, StateT.run_bind, StateT.run_bind]
  rcases hdone : (work.run.run p.tools).run p.memory with ⟨⟨outcome, tools⟩, memory⟩
  rw [hdone] at h
  cases h
  rfl

/-- What comes of work is changed as it is said. -/
theorem run_map (p : Process) (f : α → β) (work : Tools.Answering α) :
    p.run (f <$> work) = (f <$> (p.run work).1, (p.run work).2) := by
  rw [map_eq_pure_bind]
  rcases hrun : p.run work with ⟨outcome, q⟩
  cases outcome with
  | error e => rw [run_bind_of_error hrun]; rfl
  | ok a => rw [run_bind_of_ok hrun]; rfl

/-- Work of the service comes to the same when a tool does it. -/
theorem run_serve {p : Process} {work : Serving α} {result : Except Failure α} {after : Memory}
    (h : work.outcome p.memory = (result, after)) :
    p.run (Tools.serve work) = (result.mapError .failure, ⟨p.tools, after⟩) := by
  have hlift : p.run (liftM (StateT.lift work.run : Tools.Using (Except Failure α)) :
      Tools.Answering (Except Failure α)) = (.ok result, ⟨p.tools, after⟩) := by
    show (fun done : Except Failure α × Memory =>
      ((.ok done.1, ⟨p.tools, done.2⟩) : Except ToolError (Except Failure α) × Process))
        (work.outcome p.memory) = _
    rw [h]
  unfold Tools.serve
  rw [run_bind_of_ok hlift]
  cases result <;> rfl

end Process

end Depot
