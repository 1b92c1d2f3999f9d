import Depot.Proofs.OnceCache.Ending
/-!
# How failures spread

A factory that fails ends its attempt as one that returns does, so its owner gets the failure
(`EndsAt.owner`), and so do those who wait for the attempt (`EndsAt.waiter`), but for one kind of
failure. Who waits cannot tell a failure that ends a wait from having waited too long, and gets
nothing where the factory itself fails in that way. That is the only exception: whether a caller
gets the failure depends on the failure alone, not on the order of steps.

A failure is not kept. The owner removes the entry of its attempt before it publishes the failure,
and from then on the key is free until somebody looks it up (`Step.registered?_eq_none`). Who does
so first, whether it has asked before the removal or after it, runs its own factory.
-/

namespace Depot.OnceCache

variable {K V E : Type} [DecidableEq K] [Expires E]

/-- As event `n` of a run, a caller looks up the key that it has asked for. -/
def LooksUpAt (events : List (Event K V E)) (n j : Nat) (key : K) : Prop :=
  ∃ s timed, events[n]? = some (.lookup j) ∧ At events n s ∧ s.phase? j = some (.called key timed)

/-! ### Free keys -/

/-- A key for which nothing is registered stays so until somebody looks it up. -/
theorem Step.registered?_eq_none {s s' : State K V E} {e : Event K V E} {key : K} (hinv : Inv s)
    (h : Step s e s') (hfree : s.registered? key = none)
    (hquiet : ∀ j timed, e = .lookup j → s.phase? j ≠ some (.called key timed)) :
    s'.registered? key = none := by
  cases h with
  | call | join | finish | fail | publish | wake | giveUp => exact hfree
  | @install i other timed hp hnone =>
    -- the caller that registers an attempt has asked for another key
    have hne : key ≠ other := by
      rintro rfl
      exact hquiet i timed rfl hp
    rw [State.registered?_move, State.registered?_register hnone, if_neg hne]
    exact hfree
  | @remove i a e hp =>
    rw [State.registered?_move, Option.eq_none_iff_forall_ne_some]
    intro b hb
    have hkept := ((hinv.registered?_remove hp key b).mp hb).1
    rw [hfree] at hkept
    cases hkept

section Run

variable {events : List (Event K V E)} {n i a : Nat} {e : E} {key : K}

/-- A key that is free at a position of a run is free at a later one, if nobody looks it up in
between. -/
theorem At.registered?_eq_none {q m : Nat} (hqm : q ≤ m) {s : State K V E} (hs : At events q s)
    (hfree : s.registered? key = none)
    (hquiet : ∀ l j, q ≤ l → l < m → ¬ LooksUpAt events l j key) {t : State K V E}
    (ht : At events m t) : t.registered? key = none := by
  -- as nobody looks the key up, no step registers an attempt for it
  induction hqm generalizing t with
  | refl =>
    obtain rfl := hs.unique ht
    exact hfree
  | @step m hqm ih =>
    obtain ⟨u, hu⟩ := ht.exists_earlier (Nat.le_succ m)
    have hfree' := ih (fun l j hql hlm => hquiet l j hql (Nat.lt_succ_of_lt hlm)) hu
    rcases hu.next ht with ⟨-, rfl⟩ | ⟨e, he, hstep⟩
    · exact hfree'
    · refine hstep.registered?_eq_none hu.reachable.inv hfree' fun j timed hj hp => ?_
      subst hj
      exact hquiet m j hqm (Nat.lt_succ_self m) ⟨u, timed, he, hu, hp⟩

/-- Once the owner of a failed attempt has removed its entry, the key is free. -/
theorem EndsAt.registered?_removed (h : EndsAt events n i a (.error e)) {q : Nat} (hnq : n < q)
    (hremove : events[q]? = some (.remove i)) {s t : State K V E} (hs : At events q s)
    (hkey : s.keyOf? a = some key) (ht : At events (q + 1) t) : t.registered? key = none := by
  have hinv := hs.reachable.inv
  cases hs.step hremove ht with
  | @remove i b e' hp =>
    -- the attempt that the owner removes is the one that has failed
    obtain rfl : b = a := by
      rcases h.owner hnq hs with ⟨p, hi, hend⟩ | ⟨-, hi⟩
      · obtain rfl := Option.some.inj (hp.symm.trans hi)
        exact congrArg Prod.fst (Option.some.inj hend)
      · rw [hp] at hi
        cases hi
    obtain ⟨⟨k, hk, hreg⟩, -⟩ := hinv.fits hp
    obtain rfl := Option.some.inj (hk.symm.trans hkey)
    rw [State.registered?_move, Option.eq_none_iff_forall_ne_some]
    intro c hc
    obtain ⟨hc, hne⟩ := (hinv.registered?_remove hp k c).mp hc
    exact hne (Option.some.inj (hc.symm.trans hreg))

/-- A caller that looks up a free key runs its own factory, as a new attempt. -/
theorem LooksUpAt.exists_computing {m j : Nat} (h : LooksUpAt events m j key)
    (hfree : ∀ s, At events m s → s.registered? key = none) :
    ∃ t b, At events (m + 1) t ∧ t.phase? j = some (.computing b) ∧ t.keyOf? b = some key := by
  obtain ⟨s, timed, he, hs, hj⟩ := h
  have hstep := Step.install hj (hfree s hs)
  refine ⟨_, s.attempts.length, hs.succ he hstep, ?_, ?_⟩
  · exact State.phase?_move_self ((State.phase?_register key j).trans hj)
  · rw [State.keyOf?_move, State.keyOf?_register, if_pos rfl]

/-! ### The theorem -/

/-- **A failure reaches everybody who waits for it, unless it is one that ends waits, and is not
kept.**

Let a factory that runs as an attempt end in a failure, whatever the run before and after. Its owner
can only return the failure, and needs none but its own steps to do so. A caller that has joined the
attempt, before or after the failure, and does not give up waiting before the failure is published,
has returned, or waits and can go on to return: the failure, where it is not of the kind that ends a
wait, and nothing where it is. And once the owner has removed the entry, the first caller that looks
the key up runs its own factory, as another attempt. -/
theorem failure_spreads (h : EndsAt events n i a (.error e)) :
    (∀ l t, n < l → At events l t →
      (∀ r, t.phase? i = some (.returned r) → r = .error e) ∧
      ∃ own u, (∀ e' ∈ own, e'.actor? = some i) ∧ run t own = some u ∧
        u.phase? i = some (.returned (.error e))) ∧
    (∀ m j, JoinedAt events m j a → ∀ l t, m ≤ l → At events l t →
      ¬ GivesUpBetween events m l j a →
      t.phase? j = some (.returned (if Expires.expires e then .ok none else .error e)) ∨
      ∃ timed, t.phase? j = some (.waiting a timed) ∧ (n < l → ∃ more u, run t more = some u ∧
        u.phase? j = some (.returned (if Expires.expires e then .ok none else .error e)))) ∧
    (∀ q s key, n < q → events[q]? = some (.remove i) → At events q s → s.keyOf? a = some key →
      ∀ m j, q < m → LooksUpAt events m j key →
      (∀ l k, q < l → l < m → ¬ LooksUpAt events l k key) →
      ∃ t b, At events (m + 1) t ∧ t.phase? j = some (.computing b) ∧
        t.keyOf? b = some key ∧ b ≠ a) := by
  refine ⟨fun l t hnl ht => ?_, fun m j hjoin l t hml ht hstays => ?_, ?_⟩
  · -- the owner is on its way to raise the error, or has done so
    rcases h.owner hnl ht with ⟨p, hp, hend⟩ | ⟨-, hr⟩
    · refine ⟨fun r hr => ?_, ?_⟩
      · obtain rfl := Option.some.inj (hr.symm.trans hp)
        cases hend
      · obtain ⟨own, u, hown, hrun, -, hr⟩ := exists_return_of_ending ht.reachable.inv hp hend
        exact ⟨own, u, hown, hrun, hr⟩
    · refine ⟨fun r hr' => ?_, [], t, by simp, rfl, hr⟩
      exact Phase.returned.inj (Option.some.inj (hr'.symm.trans hr))
  · -- a caller that joined waits, was told, or gave up, which is excluded here
    rcases h.waiter hjoin hml ht with ⟨timed, hw⟩ | hr | ⟨-, hgave⟩
    · refine .inr ⟨timed, hw, fun hnl => ?_⟩
      exact (h.ended hnl ht).exists_answer ht.reachable.inv hw
    · exact .inl hr
    · exact absurd hgave hstays
  · intro q s key hnq hremove hs hkey m j hqm hlook hfirst
    -- the key is free from the removal on, for nobody has looked it up since
    have hfree : ∀ u, At events m u → u.registered? key = none := by
      intro u hu
      obtain ⟨t, ht⟩ := hu.exists_earlier (Nat.succ_le_of_lt hqm)
      have hfreed := h.registered?_removed hnq hremove hs hkey ht
      exact ht.registered?_eq_none (Nat.succ_le_of_lt hqm) hfreed hfirst hu
    obtain ⟨t, b, ht, hj, hb⟩ := hlook.exists_computing hfree
    refine ⟨t, b, ht, hj, hb, ?_⟩
    rintro rfl
    exact (h.ended (by omega) ht).not_computing ht.reachable.inv hj

end Run

/-! ### A run with failures of both kinds -/

/-- The failures of the run below. -/
inductive Trouble where
  | broken
  | elapsed

/-- A wait ends in the second one. -/
instance : Expires Trouble where
  expires
    | .broken => false
    | .elapsed => true

/-- A run on one key. The first factory fails as a wait that ends, and the caller that has joined
it, which never gives up, gets nothing. The second breaks, and the caller that has joined it gets
the failure. -/
def troubledRun : List (Event Nat Nat Trouble) :=
  [.call 0 false, .lookup 0, .call 0 false, .lookup 1, .finish 0 (.error .elapsed), .remove 0,
    .call 0 false, .lookup 2, .publish 0, .wake 1, .call 0 false, .lookup 3,
    .finish 2 (.error .broken), .remove 2, .publish 2, .wake 3]

/-- In that run caller 1, which has joined the first attempt, can only return nothing, caller 3,
which has joined the second, can only return its failure, and the second attempt is that of caller
2, the first that looks the key up after the entry of the first attempt is removed. -/
theorem failure_spreads_troubledRun :
    EndsAt troubledRun 4 0 0 (.error .elapsed) ∧ EndsAt troubledRun 12 2 1 (.error .broken) ∧
    (∀ l t, 4 ≤ l → At troubledRun l t → t.phase? 1 = some (.returned (.ok none)) ∨
      ∃ timed, t.phase? 1 = some (.waiting 0 timed) ∧ (4 < l → ∃ more u, run t more = some u ∧
        u.phase? 1 = some (.returned (.ok none)))) ∧
    (∀ l t, 12 ≤ l → At troubledRun l t → t.phase? 3 = some (.returned (.error .broken)) ∨
      ∃ timed, t.phase? 3 = some (.waiting 1 timed) ∧ (12 < l → ∃ more u, run t more = some u ∧
        u.phase? 3 = some (.returned (.error .broken)))) ∧
    ∃ t b, At troubledRun 8 t ∧ t.phase? 2 = some (.computing b) ∧ t.keyOf? b = some 0 ∧
      b ≠ 0 := by
  have hfirst : EndsAt troubledRun 4 0 0 (.error .elapsed) := ⟨_, rfl, rfl, rfl⟩
  have hsecond : EndsAt troubledRun 12 2 1 (.error .broken) := ⟨_, rfl, rfl, rfl⟩
  -- in this run nobody gives up
  have hstays : ∀ m l j a, ¬ GivesUpBetween troubledRun m l j a := by
    rintro m l j a ⟨k, s, -, -, he, -⟩
    simpa [troubledRun] using List.mem_of_getElem? he
  have hquiet : ∀ l k, 5 < l → l < 7 → ¬ LooksUpAt troubledRun l k 0 := by
    rintro l k hl hl' ⟨s, timed, he, -⟩
    obtain rfl : l = 6 := by omega
    cases he
  obtain ⟨-, hjoined, hnext⟩ := failure_spreads hfirst
  obtain ⟨-, hjoined', -⟩ := failure_spreads hsecond
  refine ⟨hfirst, hsecond, fun l t hl ht => ?_, fun l t hl ht => ?_, ?_⟩
  · exact hjoined 4 1 ⟨_, _, rfl, rfl⟩ l t hl ht (hstays 4 l 1 0)
  · exact hjoined' 12 3 ⟨_, _, rfl, rfl⟩ l t hl ht (hstays 12 l 3 1)
  · exact hnext 5 _ 0 (by decide) rfl rfl rfl 7 2 (by decide) ⟨_, _, rfl, rfl, rfl⟩ hquiet

end Depot.OnceCache
