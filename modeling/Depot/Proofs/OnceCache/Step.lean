import Depot.OnceCache.Basic
/-!
# The steps of a cache that computes once

`OnceCache.step` decides whether an event is possible and computes the state after it. `Step` says
the same as a relation with one rule for each way in which the cache can move, and
`step_eq_some_iff` proves the two equal. Everything that is proved about a step is a case analysis
on `Step`; what a rule does to the state is told by the lemmas on the four updates (`move`,
`register`, `unregister`, `publishOutcome`), so that no later proof opens them.

Runs are followed through their prefixes: `At events n s` says that the run of `events` is in state
`s` after `n` of them. `At.exists_run` leads from an earlier to a later state of one run.
-/

namespace Depot.OnceCache

variable {K V E : Type}

/-! ### The registry, the attempts and the callers after an update -/

/-- An entry of a list with one more at its end: the new one, or one from before. -/
theorem getElem?_append_singleton {α : Type} (xs : List α) (x : α) (n : Nat) :
    (xs ++ [x])[n]? = if n = xs.length then some x else xs[n]? := by
  rcases Nat.lt_trichotomy n xs.length with h | h | h
  · rw [List.getElem?_append_left h, if_neg (Nat.ne_of_lt h)]
  · rw [h, List.getElem?_concat_length, if_pos rfl]
  · rw [if_neg (Nat.ne_of_gt h), List.getElem?_eq_none (by simp; omega),
      List.getElem?_eq_none (by omega)]

namespace State

variable {s : State K V E}

@[simp] theorem phase?_move_self {i : Nat} {p q : Phase K V E} (h : s.phase? i = some p) :
    (s.move i q).phase? i = some q := by
  have hi : i < s.callers.length := (List.getElem?_eq_some_iff.mp h).1
  simp [phase?, move, hi]

@[simp] theorem phase?_move_ne {i j : Nat} {q : Phase K V E} (h : j ≠ i) :
    (s.move i q).phase? j = s.phase? j :=
  List.getElem?_set_ne (Ne.symm h)

@[simp] theorem keyOf?_move (i : Nat) (q : Phase K V E) (a : Nat) :
    (s.move i q).keyOf? a = s.keyOf? a := rfl

@[simp] theorem outcome?_move (i : Nat) (q : Phase K V E) (a : Nat) :
    (s.move i q).outcome? a = s.outcome? a := rfl

@[simp] theorem phase?_register (key : K) (i : Nat) :
    (s.register key).phase? i = s.phase? i := rfl

@[simp] theorem phase?_publishOutcome (a i : Nat) (o : Except E V) :
    (s.publishOutcome a o).phase? i = s.phase? i := rfl

@[simp] theorem keyOf?_publishOutcome (a b : Nat) (o : Except E V) :
    (s.publishOutcome a o).keyOf? b = s.keyOf? b := by
  simp only [keyOf?, publishOutcome, List.getElem?_modify]
  cases s.attempts[b]? with
  | none => rfl
  | some attempt => by_cases h : a = b <;> simp [h]

/-- Publishing makes the outcome of an attempt known, and changes no other. -/
theorem outcome?_publishOutcome {a : Nat} (o : Except E V) {key : K} (h : s.keyOf? a = some key)
    (b : Nat) : (s.publishOutcome a o).outcome? b = if b = a then some o else s.outcome? b := by
  obtain ⟨attempt, hattempt, -⟩ := Option.map_eq_some_iff.mp h
  by_cases hb : b = a
  · subst hb
    simp [outcome?, publishOutcome, hattempt]
  · simp only [outcome?, publishOutcome, List.getElem?_modify, Ne.symm hb, if_false, hb]
    cases s.attempts[b]? <;> rfl

/-- A new attempt has its key, and the others keep theirs. -/
theorem keyOf?_register (key : K) (a : Nat) :
    (s.register key).keyOf? a = if a = s.attempts.length then some key else s.keyOf? a := by
  unfold keyOf? register
  rw [getElem?_append_singleton]
  split <;> rfl

/-- An attempt that has a key has one of the numbers given so far. -/
theorem lt_length_of_keyOf? {a : Nat} {key : K} (h : s.keyOf? a = some key) :
    a < s.attempts.length := by
  obtain ⟨_, h, -⟩ := Option.map_eq_some_iff.mp h
  exact (List.getElem?_eq_some_iff.mp h).1

/-- An attempt from before keeps its key when a new one is registered. -/
theorem keyOf?_register_of_some {a : Nat} {k : K} (h : s.keyOf? a = some k) (key : K) :
    (s.register key).keyOf? a = some k := by
  rw [keyOf?_register, if_neg (Nat.ne_of_lt (lt_length_of_keyOf? h)), h]

/-- The next attempt has no outcome yet. -/
@[simp] theorem outcome?_length : s.outcome? s.attempts.length = none := by
  simp [outcome?]

/-- Registering an attempt publishes nothing. -/
@[simp] theorem outcome?_register (key : K) (a : Nat) :
    (s.register key).outcome? a = s.outcome? a := by
  by_cases ha : a = s.attempts.length
  · subst ha
    simp [outcome?, register]
  · simp only [outcome?, register, getElem?_append_singleton, if_neg ha]

@[simp] theorem length_attempts_register (key : K) :
    (s.register key).attempts.length = s.attempts.length + 1 := by
  simp [register]

@[simp] theorem length_attempts_publishOutcome (a : Nat) (o : Except E V) :
    (s.publishOutcome a o).attempts.length = s.attempts.length := by
  simp [publishOutcome]

variable [DecidableEq K]

@[simp] theorem registered?_move (i : Nat) (q : Phase K V E) (key : K) :
    (s.move i q).registered? key = s.registered? key := rfl

@[simp] theorem attempts_unregister (a : Nat) : (s.unregister a).attempts = s.attempts := by
  unfold unregister
  split
  · split <;> rfl
  · rfl

@[simp] theorem callers_unregister (a : Nat) : (s.unregister a).callers = s.callers := by
  unfold unregister
  split
  · split <;> rfl
  · rfl

@[simp] theorem phase?_unregister (a i : Nat) : (s.unregister a).phase? i = s.phase? i := by
  simp only [phase?, callers_unregister]

@[simp] theorem keyOf?_unregister (a b : Nat) : (s.unregister a).keyOf? b = s.keyOf? b := by
  simp only [keyOf?, attempts_unregister]

@[simp] theorem outcome?_unregister (a b : Nat) : (s.unregister a).outcome? b = s.outcome? b := by
  simp only [outcome?, attempts_unregister]

@[simp] theorem registered?_publishOutcome (a : Nat) (o : Except E V) (key : K) :
    (s.publishOutcome a o).registered? key = s.registered? key := rfl

/-- Registering an attempt for a key that has none gives the key that attempt. -/
theorem registered?_register {key : K} (h : s.registered? key = none) (other : K) :
    (s.register key).registered? other =
      if other = key then some s.attempts.length else s.registered? other := by
  by_cases hk : other = key
  · subst hk
    simp only [registered?, Option.map_eq_none_iff] at h
    simp [registered?, register, List.find?_append, h]
  · -- the entry at the end is not for this key, so the search passes it
    simp only [registered?, register, List.find?_append, hk, if_false]
    have hne : ¬ key = other := fun e => hk e.symm
    simp [hne]

/-- Removing the entry of an attempt changes what is registered for its key only, and that only
where the entry is the attempt's own. -/
theorem registered?_unregister {a : Nat} {key : K} (h : s.keyOf? a = some key) (other : K) :
    (s.unregister a).registered? other =
      if other = key ∧ s.registered? key = some a then none else s.registered? other := by
  unfold unregister
  simp only [h]
  by_cases ha : s.registered? key = some a
  · simp only [if_pos ha]
    unfold registered?
    rw [List.find?_filter]
    by_cases hk : other = key
    · subst hk
      rw [if_pos ⟨rfl, ha⟩]
      simp
    · rw [if_neg fun hc => hk hc.1]
      -- the filter keeps every entry that the search for another key could find
      congr 2
      funext entry
      by_cases he : entry.1 = other
      · simp [he, hk]
      · simp [he]
  · rw [if_neg ha, if_neg fun hc => ha hc.2]

end State

/-! ### The steps as a relation -/

variable [DecidableEq K] [Expires E]

/-- The ways in which the cache can move. -/
inductive Step (s : State K V E) : Event K V E → State K V E → Prop where
  | call (key : K) (timed : Bool) :
    Step s (.call key timed) { s with callers := s.callers ++ [.called key timed] }
  | join {i a : Nat} {key : K} {timed : Bool} (hp : s.phase? i = some (.called key timed))
    (ha : s.registered? key = some a) : Step s (.lookup i) (s.move i (.waiting a timed))
  | install {i : Nat} {key : K} {timed : Bool} (hp : s.phase? i = some (.called key timed))
    (ha : s.registered? key = none) :
    Step s (.lookup i) ((s.register key).move i (.computing s.attempts.length))
  | finish {i a : Nat} {v : V} (hp : s.phase? i = some (.computing a)) :
    Step s (.finish i (.ok v)) (s.move i (.publishing a (.ok v)))
  | fail {i a : Nat} {e : E} (hp : s.phase? i = some (.computing a)) :
    Step s (.finish i (.error e)) (s.move i (.failed a e))
  | remove {i a : Nat} {e : E} (hp : s.phase? i = some (.failed a e)) :
    Step s (.remove i) ((s.unregister a).move i (.publishing a (.error e)))
  | publish {i a : Nat} {o : Except E V} (hp : s.phase? i = some (.publishing a o)) :
    Step s (.publish i) ((s.publishOutcome a o).move i (.returned (ownerResult o)))
  | wake {i a : Nat} {timed : Bool} {o : Except E V} (hp : s.phase? i = some (.waiting a timed))
    (ho : s.outcome? a = some o) : Step s (.wake i) (s.move i (.returned (waiterResult o)))
  | giveUp {i a : Nat} (hp : s.phase? i = some (.waiting a true)) (ho : s.outcome? a = none) :
    Step s (.giveUp i) (s.move i (.returned (.ok none)))

/-- The step function allows what the relation allows. -/
theorem step_of_step {s s' : State K V E} {e : Event K V E} (h : Step s e s') :
    step s e = some s' := by
  cases h with
  | call key timed => rfl
  | join hp ha => simp [step, hp, ha]
  | install hp ha => simp [step, hp, ha]
  | finish hp => simp [step, hp]
  | fail hp => simp [step, hp]
  | remove hp => simp [step, hp]
  | publish hp => simp [step, hp]
  | wake hp ho => simp [step, hp, ho]
  | giveUp hp ho => simp [step, hp, ho]

/-- **The steps, once and for all.** An event leads from one state to another exactly by one of the
rules. -/
theorem step_eq_some_iff {s s' : State K V E} {e : Event K V E} :
    step s e = some s' ↔ Step s e s' := by
  refine ⟨fun h => ?_, step_of_step⟩
  -- an event names the caller that it moves, and the phase of that caller selects the rule
  cases e with
  | call key timed =>
    obtain rfl := Option.some.inj h
    exact .call key timed
  | lookup i =>
    simp only [step] at h
    split at h
    · next key timed hp =>
      -- the key is in the table, or it is not and the caller starts an attempt
      split at h
      · next a ha =>
        obtain rfl := Option.some.inj h
        exact .join hp ha
      · next ha =>
        obtain rfl := Option.some.inj h
        exact .install hp ha
    · cases h
  | finish i o =>
    simp only [step] at h
    split at h
    · next a hp =>
      -- a value goes on to be published, a failure leaves the table first
      cases o with
      | ok v =>
        obtain rfl := Option.some.inj h
        exact .finish hp
      | error e =>
        obtain rfl := Option.some.inj h
        exact .fail hp
    · cases h
  | remove i =>
    simp only [step] at h
    split at h
    · next a e hp =>
      obtain rfl := Option.some.inj h
      exact .remove hp
    · cases h
  | publish i =>
    simp only [step] at h
    split at h
    · next a o hp =>
      obtain rfl := Option.some.inj h
      exact .publish hp
    · cases h
  | wake i =>
    simp only [step] at h
    split at h
    · next a timed hp =>
      obtain ⟨o, ho, rfl⟩ := Option.map_eq_some_iff.mp h
      exact .wake hp ho
    · cases h
  | giveUp i =>
    simp only [step] at h
    split at h
    · next a hp =>
      split at h
      · cases h
      · next ho =>
        obtain rfl := Option.some.inj h
        exact .giveUp hp ho
    · cases h

/-! ### What a step does to one caller -/

omit [DecidableEq K] [Expires E] in
/-- A new caller has the next number, and the others stand where they stood. -/
theorem State.phase?_call_eq (s : State K V E) (c : Phase K V E) (j : Nat) :
    State.phase? { s with callers := s.callers ++ [c] } j =
      if j = s.callers.length then some c else s.phase? j :=
  getElem?_append_singleton s.callers c j

omit [DecidableEq K] [Expires E] in
/-- A caller stands where it stood after another one comes. -/
theorem State.phase?_call {s : State K V E} {j : Nat} {p : Phase K V E} (h : s.phase? j = some p)
    (c : Phase K V E) : State.phase? { s with callers := s.callers ++ [c] } j = some p := by
  rw [State.phase?_call_eq, if_neg (Nat.ne_of_lt (List.getElem?_eq_some_iff.mp h).1)]
  exact h

/-- The caller that an event moves; a new caller moves none. -/
def Event.actor? : Event K V E → Option Nat
  | .call _ _ => none
  | .lookup i => some i
  | .finish i _ => some i
  | .remove i => some i
  | .publish i => some i
  | .wake i => some i
  | .giveUp i => some i

section Caller

variable {s s' : State K V E} {e : Event K V E} {j : Nat}

/-- **Locality.** An event leaves the callers alone that it does not move. -/
theorem Step.phase?_of_ne {p : Phase K V E} (h : Step s e s') (hp : s.phase? j = some p)
    (hj : e.actor? ≠ some j) : s'.phase? j = some p := by
  cases h with
  | call key timed => exact State.phase?_call hp _
  | join | install | finish | fail | publish | wake | giveUp =>
    exact (State.phase?_move_ne fun heq => hj (congrArg some heq.symm)).trans hp
  | remove =>
    refine (State.phase?_move_ne fun heq => hj (congrArg some heq.symm)).trans ?_
    rw [State.phase?_unregister]
    exact hp

/-- A caller that has its answer keeps it. -/
theorem Step.returned {r : Except E (Option V)} (h : Step s e s')
    (hp : s.phase? j = some (.returned r)) : s'.phase? j = some (.returned r) := by
  refine h.phase?_of_ne hp fun hj => ?_
  -- no rule starts from the phase of a caller that has returned
  cases h with
  | call => cases hj
  | join hq | install hq | finish hq | fail hq | remove hq | publish hq | wake hq | giveUp hq =>
    obtain rfl := Option.some.inj hj
    rw [hp] at hq
    cases hq

/-- A caller that waits goes on waiting, wakes up with the outcome of its attempt, or gives up
before that is published. -/
theorem Step.waiting {a : Nat} {timed : Bool} (h : Step s e s')
    (hp : s.phase? j = some (.waiting a timed)) :
    s'.phase? j = some (.waiting a timed) ∨
      (∃ o, s.outcome? a = some o ∧ s'.phase? j = some (.returned (waiterResult o))) ∨
      (e = .giveUp j ∧ timed = true ∧ s.outcome? a = none ∧
        s'.phase? j = some (.returned (.ok none))) := by
  by_cases hj : e.actor? = some j
  · cases h with
    | call => cases hj
    -- these start from other phases
    | join hq | install hq | finish hq | fail hq | remove hq | publish hq =>
      obtain rfl := Option.some.inj hj
      rw [hp] at hq
      cases hq
    | wake hq ho =>
      obtain rfl := Option.some.inj hj
      obtain ⟨rfl, rfl⟩ := Phase.waiting.inj (Option.some.inj (hp.symm.trans hq))
      exact .inr (.inl ⟨_, ho, State.phase?_move_self hp⟩)
    | giveUp hq ho =>
      obtain rfl := Option.some.inj hj
      obtain ⟨rfl, rfl⟩ := Phase.waiting.inj (Option.some.inj (hp.symm.trans hq))
      exact .inr (.inr ⟨rfl, rfl, ho, State.phase?_move_self hp⟩)
  · exact .inl (h.phase?_of_ne hp hj)

/-- A caller that has asked for a key for which an attempt is registered joins that attempt. -/
theorem Step.called {key : K} {timed : Bool} {a : Nat} (h : Step s e s')
    (hp : s.phase? j = some (.called key timed)) (ha : s.registered? key = some a) :
    s'.phase? j = some (.called key timed) ∨ s'.phase? j = some (.waiting a timed) := by
  by_cases hj : e.actor? = some j
  · cases h with
    | call => cases hj
    | finish hq | fail hq | remove hq | publish hq | wake hq | giveUp hq =>
      obtain rfl := Option.some.inj hj
      rw [hp] at hq
      cases hq
    | join hq hb =>
      obtain rfl := Option.some.inj hj
      obtain ⟨rfl, rfl⟩ := Phase.called.inj (Option.some.inj (hp.symm.trans hq))
      obtain rfl := Option.some.inj (ha.symm.trans hb)
      exact .inr (State.phase?_move_self hp)
    | install hq hb =>
      -- the key has an attempt already, so no new one is made
      obtain rfl := Option.some.inj hj
      obtain ⟨rfl, rfl⟩ := Phase.called.inj (Option.some.inj (hp.symm.trans hq))
      rw [ha] at hb
      cases hb
  · exact .inl (h.phase?_of_ne hp hj)

end Caller

/-! ### Runs -/

@[simp] theorem run_nil (s : State K V E) : run s [] = some s := rfl

theorem run_cons (s : State K V E) (e : Event K V E) (events : List (Event K V E)) :
    run s (e :: events) = (step s e).bind fun s' => run s' events := rfl

theorem run_append (s : State K V E) (events more : List (Event K V E)) :
    run s (events ++ more) = (run s events).bind fun s' => run s' more :=
  List.foldlM_append

/-- What every step keeps, every run keeps. -/
theorem run_induction {motive : State K V E → Prop}
    (hstep : ∀ {s s' : State K V E} {e : Event K V E}, Step s e s' → motive s → motive s')
    {s t : State K V E} {events : List (Event K V E)} (hrun : run s events = some t)
    (hs : motive s) : motive t := by
  -- on the events, for every state that a run starts from
  induction events generalizing s with
  | nil =>
    obtain rfl := Option.some.inj hrun
    exact hs
  | cons e events ih =>
    rw [run_cons] at hrun
    obtain ⟨s', hs', hrun'⟩ := Option.bind_eq_some_iff.mp hrun
    exact ih hrun' (hstep (step_eq_some_iff.mp hs') hs)

/-- The run of `events` is in state `s` after the first `n` of them. -/
def At (events : List (Event K V E)) (n : Nat) (s : State K V E) : Prop :=
  run .initial (events.take n) = some s

theorem At.reachable {events : List (Event K V E)} {n : Nat} {s : State K V E}
    (h : At events n s) : Reachable s := ⟨_, h⟩

/-- The states of a run are determined by the number of events. -/
theorem At.unique {events : List (Event K V E)} {n : Nat} {s t : State K V E}
    (hs : At events n s) (ht : At events n t) : s = t :=
  Option.some.inj (hs.symm.trans ht)

omit [DecidableEq K] [Expires E] in
/-- The first events of a run, cut in two. -/
private theorem take_eq_append {events : List (Event K V E)} {m n : Nat} (hmn : m ≤ n) :
    events.take n = events.take m ++ (events.take n).drop m := by
  have h := (List.take_append_drop m (events.take n)).symm
  rwa [List.take_take, Nat.min_eq_left hmn] at h

/-- An earlier state of a run leads to a later one. -/
theorem At.exists_run {events : List (Event K V E)} {m n : Nat} {s t : State K V E}
    (hmn : m ≤ n) (hs : At events m s) (ht : At events n t) :
    run s ((events.take n).drop m) = some t := by
  unfold At at hs ht
  rw [take_eq_append hmn, run_append, hs] at ht
  exact ht

/-- An event of a run leads from the state before it to the state after it. -/
theorem At.step {events : List (Event K V E)} {n : Nat} {e : Event K V E} {s t : State K V E}
    (hs : At events n s) (he : events[n]? = some e) (ht : At events (n + 1) t) : Step s e t := by
  unfold At at hs ht
  rw [List.take_add_one, he, run_append, hs] at ht
  refine step_eq_some_iff.mp ?_
  simpa [run_cons] using ht

/-- An event that happens leads to the next position of a run. -/
theorem At.succ {events : List (Event K V E)} {n : Nat} {e : Event K V E} {s t : State K V E}
    (hs : At events n s) (he : events[n]? = some e) (hstep : Step s e t) : At events (n + 1) t := by
  unfold At at hs ⊢
  rw [List.take_add_one, he, run_append, hs]
  simp [run_cons, step_of_step hstep]

/-- From one position of a run to the next, either an event happens or the run is over. -/
theorem At.next {events : List (Event K V E)} {n : Nat} {s t : State K V E} (hs : At events n s)
    (ht : At events (n + 1) t) : (events[n]? = none ∧ t = s) ∨
      ∃ e, events[n]? = some e ∧ Step s e t := by
  cases he : events[n]? with
  | none =>
    left
    refine ⟨rfl, ?_⟩
    -- beyond its end a run has no more events to take
    unfold At at ht
    rw [List.take_add_one, he, Option.toList_none, List.append_nil] at ht
    exact At.unique ht hs
  | some e => exact .inr ⟨e, rfl, hs.step he ht⟩

/-- A run that reaches its end has been in a state after each of its events. -/
theorem At.exists_earlier {events : List (Event K V E)} {m n : Nat} {t : State K V E}
    (hmn : m ≤ n) (ht : At events n t) : ∃ s, At events m s := by
  unfold At at ht ⊢
  rw [take_eq_append hmn, run_append] at ht
  obtain ⟨s, hs, -⟩ := Option.bind_eq_some_iff.mp ht
  exact ⟨s, hs⟩

end Depot.OnceCache
