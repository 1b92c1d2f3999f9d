import Depot.OnceCache.Scenario
import Depot.Proofs.OnceCache.Step
/-!
# Scenarios are runs

Whatever a scenario does, it only lets events of the cache happen. So each of its moves leads the
cache along a run (`Leads`), and what is proved of all runs holds of every scenario
(`reachable_of_move`).

When threads ask for a key at once, before any of them goes on, the first of them registers an
attempt and all others find it. One factory runs, and everybody has what comes of it
(`getAtOnce_eq`). The proof follows the callers in the order of their numbers: those that have
their answers stand in front, those that wait behind them.
-/

namespace Depot.OnceCache.Scenario

variable {K V E : Type} [DecidableEq K] [Expires E]

/-! ### Moves as runs -/

/-- The cache comes from one scenario to the other by events of its own. -/
def Leads (s t : Scenario K V E) : Prop := ∃ events, run s.cache events = some t.cache

variable {s t u : Scenario K V E}

theorem Leads.refl (s : Scenario K V E) : Leads s s := ⟨[], rfl⟩

theorem Leads.trans (h : Leads s t) (h' : Leads t u) : Leads s u := by
  obtain ⟨events, hrun⟩ := h
  obtain ⟨more, hmore⟩ := h'
  exact ⟨events ++ more, by rw [run_append, hrun, Option.bind_some, hmore]⟩

/-- From a state that a run reaches, moves lead to such states only. -/
theorem Leads.reachable (h : Leads s t) (hs : Reachable s.cache) : Reachable t.cache := by
  obtain ⟨before, hbefore⟩ := hs
  obtain ⟨events, hrun⟩ := h
  exact ⟨before ++ events, by rw [run_append, hbefore, Option.bind_some, hrun]⟩

/-- An event that is possible happens. -/
theorem happen_of_step {e : Event K V E} {c : State K V E} (h : Step s.cache e c) :
    s.happen e = { s with cache := c } := by
  rw [happen, step_of_step h]
  rfl

/-- An event that is not possible changes nothing. -/
theorem happen_of_none {e : Event K V E} (h : step s.cache e = none) : s.happen e = s := by
  rw [happen, h]
  rfl

theorem leads_happen (s : Scenario K V E) (e : Event K V E) : Leads s (s.happen e) := by
  cases h : step s.cache e with
  | none => exact (happen_of_none h).symm ▸ .refl s
  | some c => exact ⟨[e], by rw [happen_of_step (step_eq_some_iff.mp h), run_cons, h]; rfl⟩

theorem leads_enter (s : Scenario K V E) (key : K) (timed : Bool) :
    Leads s (s.enter key timed).1 :=
  (leads_happen s _).trans (leads_happen _ _)

theorem leads_settle (s : Scenario K V E) (caller : Nat) (o : Except E V) :
    Leads s (s.settle caller o).1 :=
  ((leads_happen s _).trans (leads_happen _ _)).trans (leads_happen _ _)

theorem leads_await (s : Scenario K V E) (caller : Nat) : Leads s (s.await caller).1 :=
  (leads_happen s _).trans (leads_happen _ _)

theorem leads_recordFactory (s : Scenario K V E) (id : String) : Leads s (s.recordFactory id) :=
  .refl s

section Moves

variable (pair : V → Option V → V)

/-- A factory that asks for another key moves the cache as that request does. -/
theorem leads_outcome (s : Scenario K V E) (work : Work K V E) :
    Leads s (s.outcome pair work).1 := by
  induction work generalizing s with
  | give v => exact .refl s
  | fail e => exact .refl s
  | nest v id key timed work ih =>
    have henter := leads_enter s key timed
    simp only [outcome]
    split
    · exact ((henter.trans (leads_recordFactory _ id)).trans (ih _)).trans (leads_settle _ _ _)
    · exact henter.trans (leads_await _ _)

theorem leads_goOn (s : Scenario K V E) (r : Request K V E) (caller : Nat) :
    Leads s (s.goOn pair r caller).1 := by
  unfold goOn
  split
  · exact ((leads_recordFactory s r.id).trans (leads_outcome pair _ r.work)).trans
      (leads_settle _ _ _)
  · exact leads_await s caller

theorem leads_get (s : Scenario K V E) (r : Request K V E) : Leads s (s.get pair r).1 :=
  (leads_enter s r.key r.timed).trans (leads_goOn pair _ r _)

theorem leads_start (s : Scenario K V E) (r : Request K V E) :
    Leads s (s.start r).1 := by
  have henter := leads_enter s r.key r.timed
  simp only [start]
  split
  · exact henter
  · split
    · exact henter.trans (leads_happen _ _)
    · exact henter

theorem leads_release (s : Scenario K V E) (id : String) : Leads s (s.release pair id).1 := by
  unfold release
  split
  · next caller work _ =>
    split
    · exact (leads_outcome pair s work).trans (leads_settle _ _ _)
    · exact leads_await s caller
  · exact .refl s

theorem leads_enterAll (s : Scenario K V E) (key : K) (timed : Bool) (n : Nat) :
    Leads s (s.enterAll key timed n).1 := by
  induction n generalizing s with
  | zero => exact .refl s
  | succ n ih => exact (leads_enter s key timed).trans (ih _)

theorem leads_goOnAll (s : Scenario K V E) (r : Request K V E) (callers : List Nat) :
    Leads s (s.goOnAll pair r callers).1 := by
  induction callers generalizing s with
  | nil => exact .refl s
  | cons caller callers ih => exact (leads_goOn pair s r caller).trans (ih _)

theorem leads_getAtOnce (s : Scenario K V E) (r : Request K V E) (n : Nat) :
    Leads s (s.getAtOnce pair r n).1 :=
  (leads_enterAll s r.key r.timed n).trans (leads_goOnAll pair _ r _)

/-- **Scenarios are runs.** Where a run has led the cache so far, each move goes on with a run. -/
theorem reachable_of_move (hs : Reachable s.cache) (r : Request K V E) :
    Reachable (s.get pair r).1.cache ∧ Reachable (s.start r).1.cache ∧
      (∀ id, Reachable (s.release pair id).1.cache) ∧
      ∀ n, Reachable (s.getAtOnce pair r n).1.cache :=
  ⟨(leads_get pair s r).reachable hs, (leads_start s r).reachable hs,
    fun id => (leads_release pair s id).reachable hs,
    fun n => (leads_getAtOnce pair s r n).reachable hs⟩

end Moves

/-! ### Many threads at once -/

/-- The scenario with other callers. -/
def withCallers (s : Scenario K V E) (callers : List (Phase K V E)) : Scenario K V E :=
  { s with cache := { s.cache with callers } }

section Place

variable (s : Scenario K V E) (front back : List (Phase K V E)) (p q : Phase K V E)

omit [DecidableEq K] [Expires E] in
/-- A caller stands behind those in front of it. -/
theorem phase?_withCallers :
    (s.withCallers (front ++ p :: back)).cache.phase? front.length = some p := by
  simp [withCallers, State.phase?]

/-- An event that moves this caller leaves the others where they stand. -/
theorem happen_withCallers {e : Event K V E} {c : State K V E}
    (hcallers : c.callers = front ++ p :: back)
    (h : Step (s.withCallers (front ++ p :: back)).cache e (c.move front.length q)) :
    (s.withCallers (front ++ p :: back)).happen e =
      withCallers { s with cache := c } (front ++ q :: back) := by
  rw [happen_of_step h]
  simp [withCallers, State.move, hcallers]

/-- An event that does nothing but move this caller. -/
theorem happen_of_move {e : Event K V E} (h : Step (s.withCallers (front ++ p :: back)).cache e
      ((s.withCallers (front ++ p :: back)).cache.move front.length q)) :
    (s.withCallers (front ++ p :: back)).happen e = s.withCallers (front ++ q :: back) := by
  rw [happen_of_step h]
  simp [withCallers, State.move]

end Place

/-- A caller that finds an attempt waits for it. -/
theorem enter_of_registered {key : K} {a : Nat} (ha : s.cache.registered? key = some a)
    (timed : Bool) : s.enter key timed =
      (s.withCallers (s.cache.callers ++ [.waiting a timed]), s.cache.callers.length) := by
  have hcall : s.happen (.call key timed) =
      s.withCallers (s.cache.callers ++ [.called key timed]) :=
    happen_of_step (.call key timed)
  have hasked := phase?_withCallers s s.cache.callers [] (.called key timed)
  rw [enter, hcall, happen_of_move s _ _ _ _ (.join hasked ha)]

/-- A caller that finds none registers one, and runs the factory. -/
theorem enter_of_none {key : K} (hnone : s.cache.registered? key = none) (timed : Bool) :
    s.enter key timed =
      (withCallers { s with cache := s.cache.register key }
        (s.cache.callers ++ [.computing s.cache.attempts.length]), s.cache.callers.length) := by
  have hcall : s.happen (.call key timed) =
      s.withCallers (s.cache.callers ++ [.called key timed]) :=
    happen_of_step (.call key timed)
  have hasked := phase?_withCallers s s.cache.callers [] (.called key timed)
  rw [enter, hcall, happen_withCallers s _ _ _ _ rfl (.install hasked hnone)]
  rfl

/-- All who come while an attempt is registered wait for it. -/
theorem enterAll_of_registered {key : K} {a : Nat} (ha : s.cache.registered? key = some a)
    (timed : Bool) (n : Nat) : s.enterAll key timed n =
      (s.withCallers (s.cache.callers ++ List.replicate n (.waiting a timed)),
        List.range' s.cache.callers.length n) := by
  induction n generalizing s with
  | zero => simp [enterAll, withCallers]
  | succ n ih =>
    have hrest := @ih (s.withCallers (s.cache.callers ++ [.waiting a timed])) ha
    simp only [enterAll, enter_of_registered ha timed, hrest]
    simp [withCallers, List.replicate_succ, List.range'_succ]

section Answers

variable (pair : V → Option V → V) (r : Request K V E) {a : Nat} {o : Except E V}

/-- One who waits for an attempt with an outcome gets that. -/
theorem goOn_of_waiting (ho : s.cache.outcome? a = some o) (timed : Bool)
    (front back : List (Phase K V E)) :
    (s.withCallers (front ++ .waiting a timed :: back)).goOn pair r front.length =
      (s.withCallers (front ++ .returned (waiterResult o) :: back), waiterResult o) := by
  have hwaits := phase?_withCallers s front back (.waiting a timed)
  have hreturned := phase?_withCallers s front back (.returned (waiterResult o))
  have hcomputing : (s.withCallers (front ++ .waiting a timed :: back)).isComputing
      front.length = false := by
    rw [isComputing, hwaits]
  have hwake : (s.withCallers (front ++ .waiting a timed :: back)).happen (.wake front.length) =
      s.withCallers (front ++ .returned (waiterResult o) :: back) :=
    happen_of_move s _ _ _ _ (.wake hwaits ho)
  -- who has its answer does not give up
  have hgiveUp : (s.withCallers (front ++ .returned (waiterResult o) :: back)).happen
      (.giveUp front.length) = s.withCallers (front ++ .returned (waiterResult o) :: back) :=
    happen_of_none (by simp [step, hreturned])
  rw [goOn, hcomputing, if_neg Bool.false_ne_true, await, hwake, hgiveUp, answer, hreturned]

/-- All who wait for an attempt with an outcome get that. -/
theorem goOnAll_of_waiting (ho : s.cache.outcome? a = some o) (timed : Bool)
    (front : List (Phase K V E)) (n : Nat) :
    (s.withCallers (front ++ List.replicate n (.waiting a timed))).goOnAll pair r
        (List.range' front.length n) =
      (s.withCallers (front ++ List.replicate n (.returned (waiterResult o))),
        List.replicate n (waiterResult o)) := by
  induction n generalizing front with
  | zero => rfl
  | succ n ih =>
    have hrest := ih (front ++ [.returned (waiterResult o)])
    simp only [List.append_assoc, List.singleton_append, List.length_append,
      List.length_singleton] at hrest
    simp only [List.replicate_succ, List.range'_succ, goOnAll, goOn_of_waiting pair r ho, hrest]

/-- The owner of an attempt makes the outcome of its factory known. -/
theorem settle_of_computing {key : K} (ha : s.cache.keyOf? a = some key)
    (front back : List (Phase K V E)) :
    ∃ t : Scenario K V E, (s.withCallers (front ++ .computing a :: back)).settle front.length o =
        (t.withCallers (front ++ .returned (ownerResult o) :: back), ownerResult o) ∧
      t.cache.outcome? a = some o ∧ t.ran = s.ran := by
  have hcomputes := phase?_withCallers s front back (.computing a)
  -- a value is published as it is, a failure after its entry is removed
  have hends : ∃ c : State K V E, c.keyOf? a = some key ∧
      ((s.withCallers (front ++ .computing a :: back)).happen
        (.finish front.length o)).happen (.remove front.length) =
          withCallers { s with cache := c } (front ++ .publishing a o :: back) := by
    cases o with
    | ok v =>
      have hpublishes := phase?_withCallers s front back (.publishing a (.ok v))
      have hfinish : (s.withCallers (front ++ .computing a :: back)).happen
          (.finish front.length (.ok v)) = s.withCallers (front ++ .publishing a (.ok v) :: back) :=
        happen_of_move s _ _ _ _ (.finish hcomputes)
      refine ⟨s.cache, ha, ?_⟩
      rw [hfinish, happen_of_none (by simp [step, hpublishes])]
    | error e =>
      have hfailed := phase?_withCallers s front back (.failed a e)
      have hfinish : (s.withCallers (front ++ .computing a :: back)).happen
          (.finish front.length (.error e)) = s.withCallers (front ++ .failed a e :: back) :=
        happen_of_move s _ _ _ _ (.fail hcomputes)
      refine ⟨(s.withCallers (front ++ .failed a e :: back)).cache.unregister a, ?_, ?_⟩
      · rw [State.keyOf?_unregister]
        exact ha
      · rw [hfinish]
        exact happen_withCallers s _ _ _ _ (State.callers_unregister a) (.remove hfailed)
  -- in both cases the outcome is what is published last
  obtain ⟨c, hc, hends⟩ := hends
  have hpublishes := phase?_withCallers { s with cache := c } front back (.publishing a o)
  have hpublish := happen_withCallers { s with cache := c } front back _ _ rfl (.publish hpublishes)
  refine ⟨{ s with cache := c.publishOutcome a o }, ?_,
    (State.outcome?_publishOutcome o hc a).trans (if_pos rfl), rfl⟩
  rw [settle, hends, hpublish, answer, phase?_withCallers]
  rfl

/-- **Many threads at once.** If nothing is registered for the key, one factory runs, and everybody
has what comes of it. -/
theorem getAtOnce_eq (hnone : s.cache.registered? r.key = none)
    (hwork : ∀ t : Scenario K V E, t.outcome pair r.work = (t, o)) (n : Nat) :
    ∃ t : Scenario K V E, s.getAtOnce pair r (n + 1) =
        (t, ownerResult o :: List.replicate n (waiterResult o)) ∧
      t.ran = s.ran ++ [r.id] := by
  have henter := enter_of_none hnone r.timed
  have hregistered : (s.cache.register r.key).registered? r.key = some s.cache.attempts.length :=
    (State.registered?_register hnone r.key).trans (if_pos rfl)
  have hkey : (s.cache.register r.key).keyOf? s.cache.attempts.length = some r.key :=
    (State.keyOf?_register r.key _).trans (if_pos rfl)
  -- all callers are there before the first goes on
  have hentered : s.enterAll r.key r.timed (n + 1) =
      (withCallers { s with cache := s.cache.register r.key }
        (s.cache.callers ++ .computing s.cache.attempts.length ::
          List.replicate n (.waiting s.cache.attempts.length r.timed)),
        List.range' s.cache.callers.length (n + 1)) := by
    have hothers := @enterAll_of_registered K V E _ _
      (withCallers { s with cache := s.cache.register r.key }
        (s.cache.callers ++ [.computing s.cache.attempts.length])) _ _ hregistered r.timed n
    simp only [enterAll, henter, hothers]
    simp [withCallers, List.range'_succ]
  -- the first makes the outcome known, and the others find it
  obtain ⟨t, hsettle, ho, hran⟩ := @settle_of_computing K V E _ _
    (recordFactory { s with cache := s.cache.register r.key } r.id) _ o r.key hkey
    s.cache.callers (List.replicate n (.waiting s.cache.attempts.length r.timed))
  have hfirst : (withCallers { s with cache := s.cache.register r.key }
      (s.cache.callers ++ .computing s.cache.attempts.length ::
        List.replicate n (.waiting s.cache.attempts.length r.timed))).goOn pair r
        s.cache.callers.length =
      (t.withCallers (s.cache.callers ++ .returned (ownerResult o) ::
        List.replicate n (.waiting s.cache.attempts.length r.timed)), ownerResult o) := by
    rw [goOn, if_pos (by rw [isComputing, phase?_withCallers])]
    simp only [hwork]
    exact hsettle
  have hothers := goOnAll_of_waiting pair r ho r.timed
    (s.cache.callers ++ [.returned (ownerResult o)]) n
  simp only [List.append_assoc, List.singleton_append, List.length_append,
    List.length_singleton] at hothers
  refine ⟨t.withCallers (s.cache.callers ++ .returned (ownerResult o) ::
    List.replicate n (.returned (waiterResult o))), ?_, hran⟩
  simp only [getAtOnce, hentered, List.range'_succ, goOnAll, hfirst, hothers]

end Answers

end Depot.OnceCache.Scenario
