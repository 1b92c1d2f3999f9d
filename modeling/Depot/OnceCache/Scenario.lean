import Depot.OnceCache.Basic
/-!
# Scenarios of a cache

A scenario drives the cache from one main thread. It asks for keys in that thread, starts other
threads whose factories stand still until they are released, joins those that wait, and lets many
threads ask for one key at once. Every move is a sequence of the cache's own events, so a scenario
is one of the runs that the cache allows.

A factory gives a value or fails, or asks the cache for another key first and gives its own value
together with what it got.
-/

namespace Depot.OnceCache

/-- What a factory does. -/
inductive Work (K V E : Type) where
  | give (v : V)
  | fail (e : E)
  /-- It asks for a key, for which the inner work stands ready. -/
  | nest (v : V) (id : String) (key : K) (timed : Bool) (work : Work K V E)

/-- A request for a key: who asks, whether it may give up waiting, and the factory. -/
structure Request (K V E : Type) where
  id : String
  key : K
  timed : Bool
  work : Work K V E

/-- A scenario: the cache, the names of the factories that have run, and the threads by name, each
with its number as a caller and its factory. -/
structure Scenario (K V E : Type) where
  cache : State K V E
  ran : List String
  threads : List (String × Nat × Work K V E)

/-- What a thread answers when it is started. -/
inductive Started (V E : Type) where
  | running
  | waiting
  | returned (result : Except E (Option V))

namespace Scenario

variable {K V E : Type}

/-- The scenario before its first move. -/
def initial : Scenario K V E := ⟨.initial, [], []⟩

variable [DecidableEq K] [Expires E]

/-- Lets an event happen, where it is possible. -/
def happen (s : Scenario K V E) (e : Event K V E) : Scenario K V E :=
  { s with cache := (step s.cache e).getD s.cache }

/-- Records that a factory runs. -/
def recordFactory (s : Scenario K V E) (id : String) : Scenario K V E :=
  { s with ran := s.ran ++ [id] }

/-- A new caller asks for a key. The result is its number. -/
def enter (s : Scenario K V E) (key : K) (timed : Bool) : Scenario K V E × Nat :=
  let caller := s.cache.callers.length
  ((s.happen (.call key timed)).happen (.lookup caller), caller)

/-- Does the caller run the factory? -/
def isComputing (s : Scenario K V E) (caller : Nat) : Bool :=
  match s.cache.phase? caller with
  | some (.computing _) => true
  | _ => false

/-- The answer of a caller, nothing where it has none. -/
def answer (s : Scenario K V E) (caller : Nat) : Except E (Option V) :=
  match s.cache.phase? caller with
  | some (.returned result) => result
  | _ => .ok none

/-- The owner's factory ends, and the owner returns. -/
def settle (s : Scenario K V E) (caller : Nat) (outcome : Except E V) :
    Scenario K V E × Except E (Option V) :=
  let s := ((s.happen (.finish caller outcome)).happen (.remove caller)).happen (.publish caller)
  (s, s.answer caller)

/-- A waiting caller returns: with the outcome where there is one, and with nothing otherwise. -/
def await (s : Scenario K V E) (caller : Nat) : Scenario K V E × Except E (Option V) :=
  let s := (s.happen (.wake caller)).happen (.giveUp caller)
  (s, s.answer caller)

/-- Runs a factory to its end; `pair` joins its own value and what it got from the cache. -/
def outcome (pair : V → Option V → V) (s : Scenario K V E) :
    Work K V E → Scenario K V E × Except E V
  | .give v => (s, .ok v)
  | .fail e => (s, .error e)
  | .nest v id key timed work =>
    let (s, caller) := s.enter key timed
    if s.isComputing caller then
      let (s, inner) := outcome pair (s.recordFactory id) work
      let (s, result) := s.settle caller inner
      (s, result.map (pair v))
    else
      let (s, result) := s.await caller
      (s, result.map (pair v))

/-- A caller goes on to its answer: with the factory where it runs that, and with a wait
otherwise. -/
def goOn (pair : V → Option V → V) (s : Scenario K V E) (r : Request K V E) (caller : Nat) :
    Scenario K V E × Except E (Option V) :=
  if s.isComputing caller then
    let (s, inner) := (s.recordFactory r.id).outcome pair r.work
    s.settle caller inner
  else s.await caller

/-- Asks for a key in the main thread. -/
def get (pair : V → Option V → V) (s : Scenario K V E) (r : Request K V E) :
    Scenario K V E × Except E (Option V) :=
  let (s, caller) := s.enter r.key r.timed
  s.goOn pair r caller

/-- So many new callers ask for a key, before any of them goes on. The result is their numbers. -/
def enterAll (s : Scenario K V E) (key : K) (timed : Bool) : Nat → Scenario K V E × List Nat
  | 0 => (s, [])
  | n + 1 =>
    let (s, caller) := s.enter key timed
    let (s, callers) := s.enterAll key timed n
    (s, caller :: callers)

/-- Callers go on to their answers, one after the other. -/
def goOnAll (pair : V → Option V → V) (s : Scenario K V E) (r : Request K V E) :
    List Nat → Scenario K V E × List (Except E (Option V))
  | [] => (s, [])
  | caller :: callers =>
    let (s, result) := s.goOn pair r caller
    let (s, results) := s.goOnAll pair r callers
    (s, result :: results)

/-- Asks for a key in so many threads at once, all with one and the same request. -/
def getAtOnce (pair : V → Option V → V) (s : Scenario K V E) (r : Request K V E) (n : Nat) :
    Scenario K V E × List (Except E (Option V)) :=
  let (s, callers) := s.enterAll r.key r.timed n
  s.goOnAll pair r callers

/-- Asks for a key in a thread of its own, whose factory stands still. -/
def start (s : Scenario K V E) (r : Request K V E) : Scenario K V E × Started V E :=
  let (s, caller) := s.enter r.key r.timed
  let s := { s with threads := (r.id, caller, r.work) :: s.threads }
  if s.isComputing caller then (s.recordFactory r.id, .running)
  else
    let woken := s.happen (.wake caller)
    match woken.cache.phase? caller with
    | some (.returned result) => (woken, .returned result)
    | _ => (s, .waiting)

/-- Lets a thread go on to its end: a factory that stands still, or a wait. The result is that of
the thread. -/
def release (pair : V → Option V → V) (s : Scenario K V E) (id : String) :
    Scenario K V E × Except E (Option V) :=
  match s.threads.find? fun t => t.1 == id with
  | some (_, caller, work) =>
    if s.isComputing caller then
      let (s, inner) := s.outcome pair work
      s.settle caller inner
    else s.await caller
  | none => (s, .ok none)

end Scenario

end Depot.OnceCache
