import Depot.Proofs.OnceCache.Failure
import Depot.Proofs.OnceCache.View
/-!
# Keys do not interfere

What happens to one key does not depend on the others: from a run of the cache take away all events
of other keys, and what is left is a run of the cache in which the callers of the key fare as
before. The events that are left are the same but for the numbers of their callers, which count
those that ask for the key only (`project`).

A state of the run and the state at the same point of what is left are a state and its view
(`IsView`). An event of the key leads from such a pair to such a pair (`IsView.step_own`), and an
event of another key leaves the view as it is (`IsView.step_other`). The two are put together along
a run (`IsView.run`).
-/

namespace Depot.OnceCache

variable {K V E : Type}

/-! ### The part of a run that is about one key -/

/-- The keys that the callers of a run ask for, in the order in which they come. -/
def asked (events : List (Event K V E)) : List K := events.filterMap Event.asked?

/-- The key that an event is about, which is the one that its caller asks for. The keys of the
callers are given. -/
def Event.keyAmong? (keys : List K) : Event K V E → Option K
  | .call key _ => some key
  | .lookup i => keys[i]?
  | .finish i _ => keys[i]?
  | .remove i => keys[i]?
  | .publish i => keys[i]?
  | .wake i => keys[i]?
  | .giveUp i => keys[i]?

/-- The same event of a caller that has another number. -/
def Event.renumber (f : Nat → Nat) : Event K V E → Event K V E
  | .call key timed => .call key timed
  | .lookup i => .lookup (f i)
  | .finish i o => .finish (f i) o
  | .remove i => .remove (f i)
  | .publish i => .publish (f i)
  | .wake i => .wake (f i)
  | .giveUp i => .giveUp (f i)

variable [DecidableEq K]

/-- Is the event about the key? -/
def isAbout (key : K) (keys : List K) (e : Event K V E) : Bool :=
  decide (e.keyAmong? keys = some key)

/-- The events about one key, with its callers numbered among themselves. -/
def restrict (key : K) (keys : List K) (events : List (Event K V E)) : List (Event K V E) :=
  (events.filter (isAbout key keys)).map (Event.renumber (rank key (keys[·]?)))

/-- What is left of a run without the events of other keys. -/
def project (key : K) (events : List (Event K V E)) : List (Event K V E) :=
  restrict key (asked events) events

/-- How many of the first events of a run are about the key, which is the point of what is left that
corresponds to the point after them. -/
def countAbout (key : K) (events : List (Event K V E)) (n : Nat) : Nat :=
  (events.take n).countP (isAbout key (asked events))

/-- The caller that an event makes run its factory. -/
def State.starter? (s : State K V E) : Event K V E → Option Nat
  | .lookup i =>
    match s.phase? i with
    | some (.called key _) => if s.registered? key = none then some i else none
    | _ => none
  | _ => none

/-- The callers that run their factories, in the order in which they start to. -/
def starters [Expires E] (s : State K V E) : List (Event K V E) → List Nat
  | [] => []
  | e :: events =>
    match step s e with
    | some s' => (s.starter? e).toList ++ starters s' events
    | none => []

/-! ### Steps and runs -/

section Run

variable [Expires E] {key : K} {keys : List K} {s s' t : State K V E} {e : Event K V E}

omit [DecidableEq K] [Expires E] in
theorem asked_cons (e : Event K V E) (events : List (Event K V E)) :
    asked (e :: events) = e.asked?.toList ++ asked events := by
  unfold asked
  cases h : e.asked? <;> simp [h]

omit [DecidableEq K] [Expires E] in
theorem asked_append (events more : List (Event K V E)) :
    asked (events ++ more) = asked events ++ asked more :=
  List.filterMap_append

omit [Expires E] in
theorem restrict_cons_own (he : e.keyAmong? keys = some key) (events : List (Event K V E)) :
    restrict key keys (e :: events) =
      e.renumber (rank key (keys[·]?)) :: restrict key keys events := by
  simp [restrict, isAbout, he]

omit [Expires E] in
theorem restrict_cons_other (he : e.keyAmong? keys ≠ some key) (events : List (Event K V E)) :
    restrict key keys (e :: events) = restrict key keys events := by
  simp [restrict, isAbout, he]

theorem starters_cons (h : Step s e s') (events : List (Event K V E)) :
    starters s (e :: events) = (s.starter? e).toList ++ starters s' events := by
  simp [starters, step_of_step h]

/-- Only a new caller changes the number of callers. -/
theorem Step.length_callers (h : Step s e s') :
    s'.callers.length = s.callers.length + e.asked?.toList.length := by
  cases h with
  | call => simp [Event.asked?]
  | join | install | finish | fail | remove | publish | wake | giveUp =>
    simp [State.move, State.register, State.publishOutcome, Event.asked?]

/-- **An event of the key is seen.** -/
theorem IsView.step_own (h : IsView key keys s t) (hinv : Inv s) (htracks : Tracks keys s)
    (hnew : ∀ k, e.asked? = some k → keys[s.callers.length]? = some k) (hstep : Step s e s')
    (hkey : e.keyAmong? keys = some key) :
    ∃ t', Step t (e.renumber (rank key (keys[·]?))) t' ∧ IsView key keys s' t' := by
  -- an attempt that the caller has to do with is one for the key
  have hattempt : ∀ {i p a}, keys[i]? = some key → s.phase? i = some p → p.attempt? = some a →
      s.keyOf? a = some key := by
    intro i p a hi hp ha
    obtain ⟨k, hk, hi'⟩ := htracks.attempt hp ha
    rw [hk, ← hi', hi]
  cases hstep with
  | call k timed =>
    obtain rfl := Option.some.inj hkey
    exact ⟨_, .call k timed, h.call (hnew k rfl) timed⟩
  | @join i a k timed hp ha =>
    obtain rfl := Option.some.inj ((htracks.called hp).symm.trans hkey)
    have hview : t.registered? k = some (rank k s.keyOf? a) := by
      rw [h.registered?, ha, Option.map_some]
    exact ⟨_, .join (h.phase?_eq_some hkey hp) hview, h.move hkey hp (.waiting a timed)⟩
  | @install i k timed hp hnone =>
    obtain rfl := Option.some.inj ((htracks.called hp).symm.trans hkey)
    have hview : t.registered? k = none := by rw [h.registered?, hnone, Option.map_none]
    -- the new attempt is the next one in the view as well
    have hlast : rank k (s.register k).keyOf? s.attempts.length = t.attempts.length := by
      rw [rank_register le_rfl, h.attempts]
    have hp' := (State.phase?_register k i).trans hp
    have hmove := (h.register htracks hnone).move hkey hp' (.computing s.attempts.length)
    rw [Phase.renumber, hlast] at hmove
    exact ⟨_, .install (h.phase?_eq_some hkey hp) hview, hmove⟩
  | @finish i a v hp =>
    exact ⟨_, .finish (h.phase?_eq_some hkey hp), h.move hkey hp (.publishing a (.ok v))⟩
  | @fail i a e hp =>
    exact ⟨_, .fail (h.phase?_eq_some hkey hp), h.move hkey hp (.failed a e)⟩
  | @remove i a e hp =>
    have ha := hattempt hkey hp rfl
    -- the attempt is the one that is registered for the key
    obtain ⟨⟨k, hk, hreg⟩, -⟩ := hinv.fits hp
    obtain rfl := Option.some.inj (hk.symm.trans ha)
    have hp' := (State.phase?_unregister a i).trans hp
    have hmove := (h.unregister ha hreg).move hkey hp' (.publishing a (.error e))
    rw [funext (State.keyOf?_unregister a)] at hmove
    exact ⟨_, .remove (h.phase?_eq_some hkey hp), hmove⟩
  | @publish i a o hp =>
    have ha := hattempt hkey hp rfl
    exact ⟨_, .publish (h.phase?_eq_some hkey hp),
      (h.publishOutcome ha o).move hkey hp (.returned (ownerResult o))⟩
  -- an outcome is published in the view where it is in the state
  | @wake i a timed o hp ho =>
    have hview := (h.outcome? (hattempt hkey hp rfl)).trans ho
    exact ⟨_, .wake (h.phase?_eq_some hkey hp) hview, h.move hkey hp (.returned (waiterResult o))⟩
  | @giveUp i a hp ho =>
    have hview := (h.outcome? (hattempt hkey hp rfl)).trans ho
    exact ⟨_, .giveUp (h.phase?_eq_some hkey hp) hview, h.move hkey hp (.returned (.ok none))⟩

/-- **An event of another key is not seen.** -/
theorem IsView.step_other (h : IsView key keys s t) (hinv : Inv s) (htracks : Tracks keys s)
    (hnew : ∀ k, e.asked? = some k → keys[s.callers.length]? = some k) (hstep : Step s e s')
    (hkey : e.keyAmong? keys ≠ some key) : IsView key keys s' t := by
  -- an attempt that the caller has to do with is one for another key
  have hattempt : ∀ {i p a}, keys[i]? ≠ some key → s.phase? i = some p → p.attempt? = some a →
      ∃ other, other ≠ key ∧ s.keyOf? a = some other := by
    intro i p a hi hp ha
    obtain ⟨k, hk, hi'⟩ := htracks.attempt hp ha
    refine ⟨k, ?_, hk⟩
    rintro rfl
    exact hi hi'
  cases hstep with
  | call k timed =>
    refine h.call_other ?_
    rw [hnew k rfl]
    exact hkey
  | join | finish | fail | wake | giveUp => exact h.move_other hkey
  -- the other three change what all callers share, for another key
  | @install i k timed hp hnone =>
    have hne : k ≠ key := by
      rintro rfl
      exact hkey (htracks.called hp)
    exact (h.register_other hinv htracks hne hnone).move_other hkey
  | remove hp =>
    obtain ⟨k, hne, ha⟩ := hattempt hkey hp rfl
    exact (h.unregister_other hne ha).move_other hkey
  | @publish i a o hp =>
    obtain ⟨k, hne, ha⟩ := hattempt hkey hp rfl
    exact (h.publishOutcome_other hne ha o).move_other hkey

omit [Expires E] in
/-- A caller that starts its factory is seen to start it. -/
theorem IsView.starter? (h : IsView key keys s t) (htracks : Tracks keys s)
    (hkey : e.keyAmong? keys = some key) :
    t.starter? (e.renumber (rank key (keys[·]?))) =
      (s.starter? e).map (rank key (keys[·]?)) := by
  cases e with
  | call | finish | remove | publish | wake | giveUp => rfl
  | lookup i =>
    simp only [Event.renumber, State.starter?]
    rw [h.phase? hkey]
    cases hp : s.phase? i with
    | none => rfl
    | some p =>
      cases p with
      | computing | failed | publishing | waiting | returned => rfl
      | called k timed =>
        obtain rfl := Option.some.inj ((htracks.called hp).symm.trans hkey)
        -- it starts its factory where nothing is registered, in the view as in the state
        simp only [Option.map_some, Phase.renumber, h.registered?, Option.map_eq_none_iff]
        split <;> rfl

omit [Expires E] in
/-- A caller starts its factory by an event that is about its own key. -/
theorem filter_starter? (s : State K V E) (e : Event K V E) (key : K) (keys : List K) :
    ((s.starter? e).toList.filter fun i => decide (keys[i]? = some key)) =
      if e.keyAmong? keys = some key then (s.starter? e).toList else [] := by
  cases e with
  | call | finish | remove | publish | wake | giveUp => simp [State.starter?]
  | lookup i =>
    have hcases : s.starter? (.lookup i) = none ∨ s.starter? (.lookup i) = some i := by
      simp only [State.starter?]
      split
      · split
        · exact .inr rfl
        · exact .inl rfl
      · exact .inl rfl
    rcases hcases with h | h
    · simp [h]
    · simp [h, Event.keyAmong?, List.filter_singleton]

/-- **What is left of a run is a run.** It leads to what the callers of the key see, and starts
their factories in the same order. -/
theorem IsView.run (h : IsView key keys s t) (hinv : Inv s) (htracks : Tracks keys s)
    {events : List (Event K V E)} (hkeys : ∀ m k, (asked events)[m]? = some k →
      keys[s.callers.length + m]? = some k) (hrun : run s events = some s') :
    ∃ t', OnceCache.run t (restrict key keys events) = some t' ∧ IsView key keys s' t' ∧
      starters t (restrict key keys events) =
        ((starters s events).filter fun i => decide (keys[i]? = some key)).map
          (rank key (keys[·]?)) := by
  -- on the events, for every pair of states that the two runs start from
  induction events generalizing s t with
  | nil =>
    obtain rfl := Option.some.inj hrun
    exact ⟨t, rfl, h, rfl⟩
  | cons e events ih =>
    rw [run_cons] at hrun
    obtain ⟨u, hu, hrun⟩ := Option.bind_eq_some_iff.mp hrun
    have hstep := step_eq_some_iff.mp hu
    -- a caller that comes now has the first of the keys that are left, and the rest stay
    have hnew : ∀ k, e.asked? = some k → keys[s.callers.length]? = some k := by
      intro k hk
      exact hkeys 0 k (by simp [asked_cons, hk])
    have hrest : ∀ m k, (asked events)[m]? = some k → keys[u.callers.length + m]? = some k := by
      intro m k hm
      rw [hstep.length_callers, Nat.add_assoc]
      refine hkeys _ k ?_
      rw [asked_cons, List.getElem?_append_right (Nat.le_add_right _ m), Nat.add_sub_cancel_left]
      exact hm
    have hinv' := hinv.step hstep
    have htracks' := htracks.step hinv hstep hnew
    by_cases hkey : e.keyAmong? keys = some key
    · obtain ⟨t₁, hstep', hview⟩ := h.step_own hinv htracks hnew hstep hkey
      obtain ⟨t', hrun', hview', hstarters⟩ := ih hview hinv' htracks' hrest hrun
      refine ⟨t', ?_, hview', ?_⟩
      · rw [restrict_cons_own hkey, run_cons, step_of_step hstep', Option.bind_some, hrun']
      · rw [restrict_cons_own hkey, starters_cons hstep', starters_cons hstep, hstarters,
          List.filter_append, List.map_append, filter_starter?, if_pos hkey,
          h.starter? htracks hkey, Option.toList_map]
    · have hview := h.step_other hinv htracks hnew hstep hkey
      obtain ⟨t', hrun', hview', hstarters⟩ := ih hview hinv' htracks' hrest hrun
      refine ⟨t', ?_, hview', ?_⟩
      · rw [restrict_cons_other hkey, hrun']
      · rw [restrict_cons_other hkey, starters_cons hstep, hstarters, List.filter_append,
          filter_starter?, if_neg hkey, List.nil_append]

omit [Expires E] in
/-- What is left of the first events of a run are the first events of what is left of the run. -/
theorem take_project (key : K) (events : List (Event K V E)) (n : Nat) :
    (project key events).take (countAbout key events n) =
      restrict key (asked events) (events.take n) := by
  have hparts : events.filter (isAbout key (asked events)) =
      (events.take n).filter (isAbout key (asked events)) ++
        (events.drop n).filter (isAbout key (asked events)) := by
    rw [← List.filter_append, List.take_append_drop]
  unfold project restrict countAbout
  rw [← List.map_take, hparts, List.countP_eq_length_filter, List.take_left]

/-! ### The theorem -/

/-- **Keys do not interfere.**

Take any run, any point of it and any key, and take away all events that are about other keys. What
is left is a run up to the corresponding point. There the callers of the key, and no others, stand
with the same results; they have started the same factories in the same order; and a computation of
the key is under way in the one if and only if one is in the other. -/
theorem keys_do_not_interfere (key : K) {events : List (Event K V E)} {n : Nat}
    {s : State K V E} (h : At events n s) :
    ∃ t, At (project key events) (countAbout key events n) t ∧
      (∀ i, (asked events)[i]? = some key → ∀ r,
        t.phase? (rank key ((asked events)[·]?) i) = some (.returned r) ↔
          s.phase? i = some (.returned r)) ∧
      (∀ j p, t.phase? j = some p → ∃ i, i < s.callers.length ∧ (asked events)[i]? = some key ∧
        rank key ((asked events)[·]?) i = j) ∧
      starters .initial ((project key events).take (countAbout key events n)) =
        ((starters .initial (events.take n)).filter fun i =>
          decide ((asked events)[i]? = some key)).map (rank key ((asked events)[·]?)) ∧
      t.isLoading key = s.isLoading key := by
  -- callers that come by then are the first ones of the whole run
  have hkeys : ∀ m k, (asked (events.take n))[m]? = some k →
      (asked events)[(State.initial : State K V E).callers.length + m]? = some k := by
    intro m k hm
    have hparts : asked events = asked (events.take n) ++ asked (events.drop n) := by
      rw [← asked_append, List.take_append_drop]
    rw [State.initial, List.length_nil, Nat.zero_add, hparts,
      List.getElem?_append_left (List.getElem?_eq_some_iff.mp hm).1, hm]
  have hinit : IsView key (asked events) (State.initial : State K V E) State.initial := .initial
  -- a run of the cache is followed by a run about `key` alone, one state viewed in the other
  obtain ⟨t, hrun, hview, hstarters⟩ := hinit.run Inv.initial Tracks.initial hkeys h
  refine ⟨t, ?_, fun i hi r => ?_, fun j p hj => ?_, ?_, hview.isLoading h.reachable.inv⟩
  · unfold At
    rw [take_project]
    exact hrun
  · rw [hview.phase? hi, Option.map_eq_some_iff]
    constructor
    · rintro ⟨p, hp, hr⟩
      rw [hp, Phase.renumber_eq_returned_iff.mp hr]
    · intro hp
      exact ⟨_, hp, rfl⟩
  · have hlt : j < t.callers.length := (List.getElem?_eq_some_iff.mp hj).1
    rw [hview.callers] at hlt
    exact exists_rank_eq hlt
  · rw [take_project]
    exact hstarters

end Run

/-! ### A run on two keys -/

/-- A run in which two callers share a computation of the key 0 while callers of the key 1 wait and
give up, fail, remove their entry and try again. -/
def sharedRun : List (Event Nat Nat Trouble) :=
  [.call 1 false, .call 0 false, .lookup 0, .call 1 true, .lookup 2, .lookup 1,
    .finish 0 (.error .broken), .call 0 true, .giveUp 2, .lookup 3, .remove 0, .finish 1 (.ok 7),
    .publish 0, .call 1 false, .lookup 4, .publish 1, .wake 3, .finish 4 (.ok 9), .publish 4]

/-- What is left of that run for the key 0 is a run in which the two callers of the key, now the
first two, have 7 after its seven events, the first of them has run its factory, and nothing is
under way. -/
theorem keys_do_not_interfere_sharedRun :
    project 0 sharedRun = [.call 0 false, .lookup 0, .call 0 true, .lookup 1, .finish 0 (.ok 7),
      .publish 0, .wake 1] ∧
    ∃ t, At (project 0 sharedRun) 7 t ∧ t.phase? 0 = some (.returned (.ok (some 7))) ∧
      t.phase? 1 = some (.returned (.ok (some 7))) ∧
      starters .initial ((project 0 sharedRun).take 7) = [0] ∧ t.isLoading 0 = false := by
  have hend : ∃ s, At sharedRun 19 s ∧ s.phase? 1 = some (.returned (.ok (some 7))) ∧
      s.phase? 3 = some (.returned (.ok (some 7))) ∧ s.isLoading 0 = false :=
    ⟨_, rfl, rfl, rfl, rfl⟩
  obtain ⟨s, hs, hfirst, hsecond, hidle⟩ := hend
  obtain ⟨t, ht, hresults, -, hstarters, hloading⟩ := keys_do_not_interfere 0 hs
  refine ⟨rfl, t, ht, ?_, ?_, hstarters, hloading.trans hidle⟩
  · exact (hresults 1 rfl _).mpr hfirst
  · exact (hresults 3 rfl _).mpr hsecond

end Depot.OnceCache
