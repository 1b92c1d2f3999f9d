import Depot.Proofs.OnceCache.Invariant
/-!
# How attempts end

An attempt ends when its factory does, and with what that comes to: a value, or a failure of
whatever kind. From then on its owner is on the way to publish this outcome, or has published it
(`Ended`), and every step keeps it so (`Ended.step`): the owner of an attempt is one caller, and it
has no other way to go.

So the outcome of a factory is the only one that its attempt ever has (`EndsAt.outcome?_eq`). The
owner returns it (`EndsAt.owner`), and those who wait for the attempt wake up with it, unless they
give up before it is published (`EndsAt.waiter`). Nobody is stuck meanwhile: the owner needs no one
else to publish the outcome (`exists_return_of_ending`), and then those who wait can wake up.
-/

namespace Depot.OnceCache

variable {K V E : Type}

/-- The attempt whose factory has ended, with its outcome, where the caller has yet to publish
that. -/
def Phase.ending? : Phase K V E → Option (Nat × Except E V)
  | .failed a e => some (a, .error e)
  | .publishing a o => some (a, o)
  | _ => none

theorem Phase.owned?_of_ending? {p : Phase K V E} {a : Nat} {o : Except E V}
    (h : p.ending? = some (a, o)) : p.owned? = some a := by
  cases p with
  | called | computing | waiting | returned => cases h
  | failed | publishing =>
    obtain ⟨rfl, -⟩ := Prod.mk.inj (Option.some.inj h)
    rfl

/-- The attempt has the outcome, or its owner is on the way to publish it. -/
def Ended (a : Nat) (o : Except E V) (s : State K V E) : Prop :=
  s.outcome? a = some o ∨ ∃ i p, s.phase? i = some p ∧ p.ending? = some (a, o)

/-- An attempt that has ended with a value has it, or its owner is publishing it. -/
theorem ended_ok_iff {s : State K V E} {a : Nat} {v : V} : Ended a (.ok v) s ↔
    s.outcome? a = some (.ok v) ∨ ∃ i, s.phase? i = some (.publishing a (.ok v)) := by
  refine or_congr_right ⟨?_, fun ⟨i, hi⟩ => ⟨i, _, hi, rfl⟩⟩
  rintro ⟨i, p, hi, hp⟩
  cases p with
  | called | computing | failed | waiting | returned => cases hp
  | publishing b o =>
    obtain ⟨rfl, rfl⟩ := Prod.mk.inj (Option.some.inj hp)
    exact ⟨i, hi⟩

variable [DecidableEq K]

/-- As event `n` of a run, a caller ends the factory that it runs as attempt `a`. -/
def EndsAt [Expires E] (events : List (Event K V E)) (n i a : Nat) (o : Except E V) : Prop :=
  ∃ s, events[n]? = some (.finish i o) ∧ At events n s ∧ s.phase? i = some (.computing a)

/-- After `n` events of a run a caller waits for the attempt. -/
def JoinedAt [Expires E] (events : List (Event K V E)) (n : Nat) (j a : Nat) : Prop :=
  ∃ s timed, At events n s ∧ s.phase? j = some (.waiting a timed)

/-- Between two positions of a run a caller gives up waiting for the attempt, whose outcome is not
published yet. -/
def GivesUpBetween [Expires E] (events : List (Event K V E)) (m n : Nat) (j a : Nat) : Prop :=
  ∃ l s, m ≤ l ∧ l < n ∧ events[l]? = some (.giveUp j) ∧ At events l s ∧ s.outcome? a = none

/-- A caller that has given up between two positions has done so between wider ones. -/
theorem GivesUpBetween.mono [Expires E] {events : List (Event K V E)} {m n j a : Nat}
    (h : GivesUpBetween events m n j a) : GivesUpBetween events m (n + 1) j a := by
  obtain ⟨l, s, hml, hln, hrest⟩ := h
  exact ⟨l, s, hml, Nat.lt_succ_of_lt hln, hrest⟩

/-! ### Outcomes stay -/

section Step

variable {s s' : State K V E} {e : Event K V E} {a : Nat} {o : Except E V}

/-- While its owner has yet to publish an outcome, an attempt has none. -/
theorem Inv.outcome?_eq_none (hinv : Inv s) {i : Nat} {p : Phase K V E} (hi : s.phase? i = some p)
    (hp : p.ending? = some (a, o)) : s.outcome? a = none :=
  (hinv.fits hi).outcome?_eq_none (Phase.owned?_of_ending? hp)

/-- An attempt that has ended has no other outcome. -/
theorem Ended.eq_of_outcome? (hinv : Inv s) (h : Ended a o s) {o' : Except E V}
    (ho' : s.outcome? a = some o') : o' = o := by
  rcases h with ho | ⟨i, p, hi, hp⟩
  · exact Option.some.inj (ho'.symm.trans ho)
  · rw [hinv.outcome?_eq_none hi hp] at ho'
    cases ho'

/-- No factory runs for an attempt that has ended. -/
theorem Ended.not_computing (hinv : Inv s) (h : Ended a o s) {j : Nat} :
    s.phase? j ≠ some (.computing a) := by
  intro hj
  rcases h with ho | ⟨i, p, hi, hp⟩
  · have hnone := (hinv.fits hj).outcome?_eq_none rfl
    rw [ho] at hnone
    cases hnone
  · -- the attempt has one owner, and that one is past its factory
    obtain rfl := hinv.owner_unique hj hi rfl (Phase.owned?_of_ending? hp)
    obtain rfl := Option.some.inj (hj.symm.trans hi)
    cases hp

variable [Expires E]

/-- An outcome that is published stays. -/
theorem Step.outcome? (hinv : Inv s) (h : Step s e s') (ho : s.outcome? a = some o) :
    s'.outcome? a = some o := by
  cases h with
  | call | join | finish | fail | wake | giveUp => exact ho
  | install =>
    rw [State.outcome?_move, State.outcome?_register]
    exact ho
  | remove =>
    rw [State.outcome?_move, State.outcome?_unregister]
    exact ho
  | publish hp =>
    -- an attempt is published once: its owner is publishing, so it has no outcome yet
    obtain ⟨key, hkey⟩ := (hinv.fits hp).exists_keyOf? rfl
    have hnone := (hinv.fits hp).outcome?_eq_none rfl
    rw [State.outcome?_move, State.outcome?_publishOutcome _ hkey]
    split
    · next hab =>
      subst hab
      rw [ho] at hnone
      cases hnone
    · exact ho

/-- An outcome that is published before a run is the same after it. -/
theorem outcome?_run (hinv : Inv s) (ho : s.outcome? a = some o) {events : List (Event K V E)}
    {t : State K V E} (hrun : run s events = some t) : t.outcome? a = some o :=
  hinv.run_induction (fun hinv hstep ho => hstep.outcome? hinv ho) hrun ho

/-- **The way of an owner.** From the end of its factory an owner goes straight to its result: it
removes the entry of a failure, publishes the outcome and returns it. -/
theorem Step.ending (hinv : Inv s) (h : Step s e s') {i : Nat} {p : Phase K V E}
    (hi : s.phase? i = some p) (hp : p.ending? = some (a, o)) :
    (∃ q, s'.phase? i = some q ∧ q.ending? = some (a, o)) ∨
      (s'.outcome? a = some o ∧ s'.phase? i = some (.returned (ownerResult o))) := by
  by_cases hj : e.actor? = some i
  · cases h with
    | call => cases hj
    -- these start from phases in which no factory has ended
    | join hq | install hq | finish hq | fail hq | wake hq | giveUp hq =>
      obtain rfl := Option.some.inj hj
      obtain rfl := Option.some.inj (hq.symm.trans hi)
      cases hp
    | remove hq =>
      obtain rfl := Option.some.inj hj
      obtain rfl := Option.some.inj (hq.symm.trans hi)
      obtain ⟨rfl, rfl⟩ := Prod.mk.inj (Option.some.inj hp)
      exact .inl ⟨_, State.phase?_move_self ((State.phase?_unregister _ _).trans hq), rfl⟩
    | publish hq =>
      obtain rfl := Option.some.inj hj
      obtain rfl := Option.some.inj (hq.symm.trans hi)
      obtain ⟨rfl, rfl⟩ := Prod.mk.inj (Option.some.inj hp)
      obtain ⟨key, hkey⟩ := (hinv.fits hq).exists_keyOf? rfl
      refine .inr ⟨?_, State.phase?_move_self ((State.phase?_publishOutcome _ _ _).trans hq)⟩
      rw [State.outcome?_move, State.outcome?_publishOutcome _ hkey, if_pos rfl]
  · exact .inl ⟨p, h.phase?_of_ne hi hj, hp⟩

/-- **An attempt that has ended stays so**, with the same outcome. -/
theorem Ended.step (hinv : Inv s) (h : Ended a o s) (hstep : Step s e s') : Ended a o s' := by
  rcases h with ho | ⟨i, p, hi, hp⟩
  · exact .inl (hstep.outcome? hinv ho)
  · rcases hstep.ending hinv hi hp with hq | ⟨ho, -⟩
    · exact .inr ⟨i, hq⟩
    · exact .inl ho

end Step

/-! ### What callers get -/

section Run

variable [Expires E] {events : List (Event K V E)} {n i a : Nat} {o : Except E V}

/-- Right after its factory has ended, an owner has an outcome to publish. -/
theorem Step.finished {s s' : State K V E} (h : Step s (.finish i o) s')
    (hi : s.phase? i = some (.computing a)) :
    ∃ p, s'.phase? i = some p ∧ p.ending? = some (a, o) := by
  cases h with
  | finish hp =>
    obtain rfl := Phase.computing.inj (Option.some.inj (hp.symm.trans hi))
    exact ⟨_, State.phase?_move_self hi, rfl⟩
  | fail hp =>
    obtain rfl := Phase.computing.inj (Option.some.inj (hp.symm.trans hi))
    exact ⟨_, State.phase?_move_self hi, rfl⟩

/-- **The owner gets the outcome.** After its factory has ended, it has yet to publish the outcome,
or has returned it. -/
theorem EndsAt.owner (h : EndsAt events n i a o) {l : Nat} (hnl : n + 1 ≤ l) {t : State K V E}
    (ht : At events l t) : (∃ p, t.phase? i = some p ∧ p.ending? = some (a, o)) ∨
      (t.outcome? a = some o ∧ t.phase? i = some (.returned (ownerResult o))) := by
  obtain ⟨s, he, hs, hi⟩ := h
  -- on the position in the run, from the one after the event
  induction hnl generalizing t with
  | refl => exact .inl ((hs.step he ht).finished hi)
  | @step l hnl ih =>
    obtain ⟨u, hu⟩ := ht.exists_earlier (Nat.le_succ l)
    rcases hu.next ht with ⟨-, rfl⟩ | ⟨e, -, hstep⟩
    · exact ih hu
    · rcases ih hu with ⟨p, hp, hend⟩ | ⟨ho, hr⟩
      · exact hstep.ending hu.reachable.inv hp hend
      · exact .inr ⟨hstep.outcome? hu.reachable.inv ho, hstep.returned hr⟩

/-- After its factory has ended, an attempt has ended. -/
theorem EndsAt.ended (h : EndsAt events n i a o) {m : Nat} {t : State K V E} (hnm : n < m)
    (ht : At events m t) : Ended a o t := by
  rcases h.owner hnm ht with ⟨p, hp, hend⟩ | ⟨ho, -⟩
  · exact .inr ⟨i, p, hp, hend⟩
  · exact .inl ho

/-- The only outcome that an attempt ever has is that of its factory. -/
theorem EndsAt.outcome?_eq (h : EndsAt events n i a o) {m : Nat} {t : State K V E}
    (ht : At events m t) {o' : Except E V} (ho : t.outcome? a = some o') : o' = o ∧ n < m := by
  rcases Nat.lt_or_ge n m with hnm | hmn
  · exact ⟨(h.ended hnm ht).eq_of_outcome? ht.reachable.inv ho, hnm⟩
  · -- an earlier outcome would still be there while the factory runs
    obtain ⟨s, -, hs, hi⟩ := h
    have hkept := outcome?_run ht.reachable.inv ho (At.exists_run hmn ht hs)
    have hnone := (hs.reachable.inv.fits hi).outcome?_eq_none rfl
    rw [hkept] at hnone
    cases hnone

/-- **Waiters get the outcome.** A caller that has joined an attempt goes on waiting, has what the
factory came to, or has given up before that was published. -/
theorem EndsAt.waiter (h : EndsAt events n i a o) {m j : Nat} (hjoin : JoinedAt events m j a)
    {l : Nat} (hml : m ≤ l) {t : State K V E} (ht : At events l t) :
    (∃ timed, t.phase? j = some (.waiting a timed)) ∨
      t.phase? j = some (.returned (waiterResult o)) ∨
      (t.phase? j = some (.returned (.ok none)) ∧ GivesUpBetween events m l j a) := by
  -- on the position in the run, from the one at which the caller waits
  induction hml generalizing t with
  | refl =>
    obtain ⟨s, timed, hs, hj⟩ := hjoin
    obtain rfl := hs.unique ht
    exact .inl ⟨timed, hj⟩
  | @step l hml ih =>
    obtain ⟨u, hu⟩ := ht.exists_earlier (Nat.le_succ l)
    rcases hu.next ht with ⟨-, rfl⟩ | ⟨e, he, hstep⟩
    · rcases ih hu with hw | hv | ⟨hn, hgave⟩
      · exact .inl hw
      · exact .inr (.inl hv)
      · exact .inr (.inr ⟨hn, hgave.mono⟩)
    · rcases ih hu with ⟨timed, hw⟩ | hv | ⟨hn, hgave⟩
      · rcases hstep.waiting hw with hw | ⟨o', ho, hr⟩ | ⟨rfl, -, ho, hr⟩
        · exact .inl ⟨timed, hw⟩
        · -- it wakes up with the outcome, which can only be that of the factory
          obtain ⟨rfl, -⟩ := h.outcome?_eq hu ho
          exact .inr (.inl hr)
        · exact .inr (.inr ⟨hr, l, u, hml, Nat.lt_succ_self l, he, hu, ho⟩)
      · exact .inr (.inl (hstep.returned hv))
      · exact .inr (.inr ⟨hstep.returned hn, hgave.mono⟩)

end Run

/-! ### Nobody is stuck -/

section Progress

variable [Expires E] {s : State K V E} {a i j : Nat} {o : Except E V} {timed : Bool}

/-- Steps of one caller leave the others alone. -/
theorem phase?_run_of_ne {own : List (Event K V E)} (hown : ∀ e ∈ own, e.actor? = some i)
    {p : Phase K V E} (hj : s.phase? j = some p) (hne : j ≠ i) {t : State K V E}
    (hrun : run s own = some t) : t.phase? j = some p := by
  induction own generalizing s with
  | nil =>
    obtain rfl := Option.some.inj hrun
    exact hj
  | cons e own ih =>
    rw [run_cons] at hrun
    obtain ⟨s', hs', hrun⟩ := Option.bind_eq_some_iff.mp hrun
    refine ih (fun e' he' => hown e' (List.mem_cons_of_mem e he')) ?_ hrun
    refine (step_eq_some_iff.mp hs').phase?_of_ne hj fun hactor => hne ?_
    exact Option.some.inj (hactor.symm.trans (hown e List.mem_cons_self))

/-- An owner whose factory has ended can publish the outcome and return it, by its own steps. -/
theorem exists_return_of_ending (hinv : Inv s) {p : Phase K V E} (hi : s.phase? i = some p)
    (hp : p.ending? = some (a, o)) : ∃ own t, (∀ e ∈ own, e.actor? = some i) ∧
      run s own = some t ∧ t.outcome? a = some o ∧
      t.phase? i = some (.returned (ownerResult o)) := by
  -- from the phase before the last there is one step to go
  have hpublish : ∀ {s : State K V E}, Inv s → s.phase? i = some (.publishing a o) →
      ∃ t, step s (.publish i) = some t ∧ t.outcome? a = some o ∧
        t.phase? i = some (.returned (ownerResult o)) := by
    intro s hinv hi
    obtain ⟨key, hkey⟩ := (hinv.fits hi).exists_keyOf? rfl
    refine ⟨_, step_of_step (.publish hi), ?_, State.phase?_move_self hi⟩
    rw [State.outcome?_move, State.outcome?_publishOutcome _ hkey, if_pos rfl]
  cases p with
  | called | computing | waiting | returned => cases hp
  | publishing b o' =>
    obtain ⟨rfl, rfl⟩ := Prod.mk.inj (Option.some.inj hp)
    obtain ⟨t, ht, ho, hr⟩ := hpublish hinv hi
    exact ⟨[.publish i], t, by simp [Event.actor?], by simp [run_cons, ht], ho, hr⟩
  | failed b e =>
    obtain ⟨rfl, rfl⟩ := Prod.mk.inj (Option.some.inj hp)
    have hremove := Step.remove hi
    have hi' := State.phase?_move_self (q := .publishing b (.error e))
      ((State.phase?_unregister (s := s) b i).trans hi)
    obtain ⟨t, ht, ho, hr⟩ := hpublish (hinv.step hremove) hi'
    refine ⟨[.remove i, .publish i], t, by simp [Event.actor?], ?_, ho, hr⟩
    simp [run_cons, step_of_step hremove, ht]

/-- A caller that waits for a published outcome can wake up with it, whatever the others do. -/
theorem exists_answer_of_waiting (hj : s.phase? j = some (.waiting a timed))
    (ho : s.outcome? a = some o) :
    ∃ s', step s (.wake j) = some s' ∧ s'.phase? j = some (.returned (waiterResult o)) :=
  ⟨_, step_of_step (.wake hj ho), State.phase?_move_self hj⟩

/-- A caller that waits for an attempt that has ended can get its outcome: the owner publishes it,
where it has not, and the caller wakes up. -/
theorem Ended.exists_answer (hinv : Inv s) (h : Ended a o s)
    (hj : s.phase? j = some (.waiting a timed)) :
    ∃ events t, OnceCache.run s events = some t ∧
      t.phase? j = some (.returned (waiterResult o)) := by
  rcases h with ho | ⟨i, p, hi, hp⟩
  · obtain ⟨t, ht, hr⟩ := exists_answer_of_waiting hj ho
    exact ⟨[.wake j], t, by simp [run_cons, ht], hr⟩
  · -- the owner is another caller, so its steps leave the waiting one where it is
    have hne : j ≠ i := by
      rintro rfl
      obtain rfl := Option.some.inj (hj.symm.trans hi)
      cases hp
    obtain ⟨own, u, hown, hrun, ho, -⟩ := exists_return_of_ending hinv hi hp
    obtain ⟨t, ht, hr⟩ := exists_answer_of_waiting (phase?_run_of_ne hown hj hne hrun) ho
    refine ⟨own ++ [.wake j], t, ?_, hr⟩
    rw [run_append, hrun, Option.bind_some, run_cons, ht, Option.bind_some, run_nil]

end Progress

end Depot.OnceCache
