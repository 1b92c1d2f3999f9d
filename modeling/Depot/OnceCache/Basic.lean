/-!
# Caches that compute once

A cache that many callers use at the same time computes each key once and gives all of them the same
value. The first caller of a key registers an attempt and runs the factory; callers that come while
the attempt is under way wait for its outcome. A value stays registered. A failure reaches the owner
and those who wait, and its entry is removed, so that a later caller tries again.

The module describes the cache as a machine whose steps are those that no other caller can cut into:
to look the key up or register an attempt, to end the factory, to remove a failed entry, to publish
the outcome, and to wake up or give up. A run is a sequence of events, whoever they belong to.

Waiting for an outcome may itself be given up as long as the outcome is not published, in which case
the caller gets nothing. A factory may fail with the very kind of failure by which waiting ends; a
caller that waits cannot tell the two apart, and gets nothing as well.
-/

namespace Depot

/-- A failure that ends a wait in the way in which giving up does. -/
class Expires (E : Type) where
  expires : E → Bool

namespace OnceCache

variable {K V E : Type}

/-- One attempt to compute a key: its outcome, once that is published. -/
structure Attempt (K V E : Type) where
  key : K
  outcome : Option (Except E V)

/-- Where a caller stands. The attempts are given by their numbers. -/
inductive Phase (K V E : Type) where
  /-- It has asked for a key, and may give up waiting where `timed`. -/
  | called (key : K) (timed : Bool)
  /-- It runs the factory. -/
  | computing (attempt : Nat)
  /-- Its factory has failed, and the entry is still there. -/
  | failed (attempt : Nat) (e : E)
  /-- Its factory has ended, and the outcome is not published yet. -/
  | publishing (attempt : Nat) (outcome : Except E V)
  /-- It waits for another caller's attempt. -/
  | waiting (attempt : Nat) (timed : Bool)
  /-- It has its answer: a value, nothing, or a failure. -/
  | returned (result : Except E (Option V))

/-- The cache and its callers. Attempts and callers are numbered from zero in the order in which
they come. -/
structure State (K V E : Type) where
  registry : List (K × Nat)
  attempts : List (Attempt K V E)
  callers : List (Phase K V E)

/-- What may happen next. Callers are given by their numbers. -/
inductive Event (K V E : Type) where
  /-- A new caller asks for a key. -/
  | call (key : K) (timed : Bool)
  | lookup (caller : Nat)
  /-- The factory ends. -/
  | finish (caller : Nat) (outcome : Except E V)
  | remove (caller : Nat)
  | publish (caller : Nat)
  | wake (caller : Nat)
  | giveUp (caller : Nat)

namespace State

/-- A cache without entries and callers. -/
def initial : State K V E := ⟨[], [], []⟩

variable [DecidableEq K]

/-- The attempt that is registered for a key. -/
def registered? (s : State K V E) (key : K) : Option Nat :=
  (s.registry.find? fun entry => decide (entry.1 = key)).map (·.2)

/-- The key of an attempt. -/
def keyOf? (s : State K V E) (attempt : Nat) : Option K := s.attempts[attempt]?.map (·.key)

/-- The published outcome of an attempt. -/
def outcome? (s : State K V E) (attempt : Nat) : Option (Except E V) :=
  s.attempts[attempt]?.bind (·.outcome)

/-- Where a caller stands. -/
def phase? (s : State K V E) (caller : Nat) : Option (Phase K V E) := s.callers[caller]?

/-- The state after a caller has moved. -/
def move (s : State K V E) (caller : Nat) (phase : Phase K V E) : State K V E :=
  { s with callers := s.callers.set caller phase }

/-- Is a computation of the key under way? -/
def isLoading (s : State K V E) (key : K) : Bool :=
  match s.registered? key with
  | some attempt => (s.outcome? attempt).isNone
  | none => false

/-- Registers a new attempt for a key. -/
def register (s : State K V E) (key : K) : State K V E :=
  { s with
    registry := s.registry ++ [(key, s.attempts.length)]
    attempts := s.attempts ++ [⟨key, none⟩] }

/-- Removes the entry of an attempt's key, if that is still this attempt's. -/
def unregister (s : State K V E) (attempt : Nat) : State K V E :=
  match s.keyOf? attempt with
  | some key =>
    if s.registered? key = some attempt then
      { s with registry := s.registry.filter fun entry => decide (entry.1 ≠ key) }
    else s
  | none => s

/-- Makes an outcome known. -/
def publishOutcome (s : State K V E) (attempt : Nat) (outcome : Except E V) : State K V E :=
  { s with attempts := s.attempts.modify attempt fun a => { a with outcome := some outcome } }

end State

/-- What the owner of an attempt gets. -/
def ownerResult (outcome : Except E V) : Except E (Option V) := outcome.map some

/-- What a caller gets that waited for an outcome. -/
def waiterResult [Expires E] : Except E V → Except E (Option V)
  | .ok v => .ok (some v)
  | .error e => if Expires.expires e then .ok none else .error e

variable [DecidableEq K] [Expires E]

/-- The state after an event, if the event is possible. -/
def step (s : State K V E) : Event K V E → Option (State K V E)
  | .call key timed => some { s with callers := s.callers ++ [.called key timed] }
  | .lookup caller =>
    match s.phase? caller with
    | some (.called key timed) =>
      match s.registered? key with
      | some attempt => some (s.move caller (.waiting attempt timed))
      | none => some ((s.register key).move caller (.computing s.attempts.length))
    | _ => none
  | .finish caller outcome =>
    match s.phase? caller with
    | some (.computing attempt) =>
      -- the entry of a failure is removed before the failure is published
      match outcome with
      | .ok _ => some (s.move caller (.publishing attempt outcome))
      | .error e => some (s.move caller (.failed attempt e))
    | _ => none
  | .remove caller =>
    match s.phase? caller with
    | some (.failed attempt e) =>
      some ((s.unregister attempt).move caller (.publishing attempt (.error e)))
    | _ => none
  | .publish caller =>
    match s.phase? caller with
    | some (.publishing attempt outcome) =>
      some ((s.publishOutcome attempt outcome).move caller (.returned (ownerResult outcome)))
    | _ => none
  | .wake caller =>
    match s.phase? caller with
    | some (.waiting attempt _) =>
      (s.outcome? attempt).map fun outcome => s.move caller (.returned (waiterResult outcome))
    | _ => none
  | .giveUp caller =>
    match s.phase? caller with
    | some (.waiting attempt true) =>
      -- a wait that may end without an outcome does so only while there is none
      match s.outcome? attempt with
      | some _ => none
      | none => some (s.move caller (.returned (.ok none)))
    | _ => none

/-- The state after a sequence of events, if they are possible one after the other. -/
def run (s : State K V E) (events : List (Event K V E)) : Option (State K V E) :=
  events.foldlM step s

/-- Does some run from the empty cache lead to a state? -/
def Reachable (s : State K V E) : Prop := ∃ events, run .initial events = some s

end OnceCache

end Depot
