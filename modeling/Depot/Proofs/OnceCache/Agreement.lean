import Depot.Proofs.OnceCache.Ending
/-!
# A cache computes once and everybody agrees

Once the factory of an attempt has returned a value, the attempt is *settled* (`Settled`): it stays
registered for its key, and its outcome is that value or waits to be published as that value. Every
step keeps this (`Settled.step`), because the only step that takes an entry out of the registry
belongs to the owner of an attempt that has failed, and the owner of a settled attempt has not.

What callers see follows from the position of a run at which the factory returns. Before it the
attempt has no outcome, and after it no other outcome than the value (`ReturnsAt.outcome?_eq`), so a
caller that waits for the attempt, whenever it has joined, gets the value or gives up before the
value is published (`ReturnsAt.waiter`). A caller that comes after the publication finds the attempt
registered and its outcome known, so it gets the value whatever its timeout (`ReturnsAt.late`).
-/

namespace Depot.OnceCache

variable {K V E : Type} [DecidableEq K]

/-- The attempt is registered for the key, and its outcome is the value, or waits to be published
as the value. -/
def Settled (key : K) (a : Nat) (v : V) (s : State K V E) : Prop :=
  s.registered? key = some a ∧
    (s.outcome? a = some (.ok v) ∨ ∃ i, s.phase? i = some (.publishing a (.ok v)))

/-- A factory that runs as attempt `a` for a key returns a value, as event `n` of a run. -/
def ReturnsAt [Expires E] (events : List (Event K V E)) (n : Nat) (key : K) (a : Nat) (v : V) :
    Prop :=
  ∃ i s, events[n]? = some (.finish i (.ok v)) ∧ At events n s ∧
    s.phase? i = some (.computing a) ∧ s.keyOf? a = some key

/-! ### Outcomes and settled attempts stay -/

section Step

variable {s s' : State K V E} {e : Event K V E} {a : Nat}

/-- A settled attempt has ended with its value. -/
theorem Settled.ended {key : K} {v : V} (h : Settled key a v s) : Ended a (.ok v) s :=
  ended_ok_iff.mpr h.2

/-- The owner of a settled attempt has not failed. -/
theorem Settled.ne_failed {key : K} {v : V} (hinv : Inv s) (h : Settled key a v s) (i : Nat)
    (e : E) : s.phase? i ≠ some (.failed a e) := by
  intro hi
  rcases h.2 with ho | ⟨j, hj⟩
  · -- a failure that waits to be removed has no outcome yet
    have hnone := (hinv.fits hi).outcome?_eq_none rfl
    rw [ho] at hnone
    cases hnone
  · -- the owner is publishing, and it is the only one
    obtain rfl := hinv.owner_unique hi hj rfl rfl
    rw [hi] at hj
    cases hj

/-- No factory of a key runs in a state in which an attempt for it is settled. -/
theorem Settled.not_computing {key : K} {v : V} (hinv : Inv s) (h : Settled key a v s) {j b : Nat}
    (hj : s.phase? j = some (.computing b)) : s.keyOf? b ≠ some key := by
  intro hb
  obtain ⟨⟨k, hk, hreg⟩, -⟩ := hinv.fits hj
  obtain rfl := Option.some.inj (hk.symm.trans hb)
  -- a running attempt is registered for its key, so it would be the settled one
  obtain rfl := Option.some.inj (hreg.symm.trans h.1)
  exact h.ended.not_computing hinv hj

variable [Expires E]

/-- What is registered for a key stays until its own attempt is removed. -/
theorem Step.registered? {key : K} (hinv : Inv s) (h : Step s e s')
    (ha : s.registered? key = some a)
    (hfail : ∀ i e, s.phase? i ≠ some (.failed a e)) : s'.registered? key = some a := by
  cases h with
  | call | join | finish | fail | publish | wake | giveUp => exact ha
  | @install i k timed hp hnone =>
    -- a new attempt is made only for a key that has none
    have hne : key ≠ k := by
      rintro rfl
      rw [ha] at hnone
      cases hnone
    rw [State.registered?_move, State.registered?_register hnone, if_neg hne]
    exact ha
  | @remove i b e hp =>
    rw [State.registered?_move]
    refine (hinv.registered?_remove hp key a).mpr ⟨ha, ?_⟩
    rintro rfl
    exact hfail i e hp

/-- **A settled attempt stays settled.** -/
theorem Settled.step {key : K} {v : V} (hinv : Inv s) (h : Settled key a v s)
    (hstep : Step s e s') : Settled key a v s' :=
  ⟨hstep.registered? hinv h.1 (h.ne_failed hinv), ended_ok_iff.mp (h.ended.step hinv hstep)⟩

/-- What was settled before a run is settled after it, and the invariant still holds. -/
theorem Settled.run {key : K} {v : V} (hinv : Inv s) (h : Settled key a v s)
    {events : List (Event K V E)} {t : State K V E} (hrun : run s events = some t) :
    Settled key a v t :=
  hinv.run_induction (fun hinv hstep h => h.step hinv hstep) hrun h

end Step

/-! ### What callers get -/

section Run

variable [Expires E] {events : List (Event K V E)} {n a : Nat} {key : K} {v : V}

/-- After its factory has returned a value, an attempt is settled. -/
theorem ReturnsAt.settled (h : ReturnsAt events n key a v) {m : Nat} {t : State K V E} (hnm : n < m)
    (ht : At events m t) : Settled key a v t := by
  obtain ⟨i, s, he, hs, hi, hkey⟩ := h
  obtain ⟨s', hs'⟩ := ht.exists_earlier (Nat.succ_le_of_lt hnm)
  have hinv := hs.reachable.inv
  -- right after the event the owner waits to publish the value
  have hsettled : Settled key a v s' := by
    have hstep := hs.step he hs'
    obtain rfl : s' = s.move i (.publishing a (.ok v)) := by
      have hrule : Step s (.finish i (.ok v)) (s.move i (.publishing a (.ok v))) := .finish hi
      exact Option.some.inj ((step_of_step hstep).symm.trans (step_of_step hrule))
    obtain ⟨⟨k, hk, hreg⟩, -⟩ := hinv.fits hi
    obtain rfl := Option.some.inj (hk.symm.trans hkey)
    exact ⟨hreg, .inr ⟨i, State.phase?_move_self hi⟩⟩
  exact hsettled.run hs'.reachable.inv (At.exists_run (Nat.succ_le_of_lt hnm) hs' ht)

/-- The factory of the attempt ends with the value. -/
theorem ReturnsAt.exists_endsAt (h : ReturnsAt events n key a v) :
    ∃ i, EndsAt events n i a (.ok v) := by
  obtain ⟨i, s, he, hs, hi, -⟩ := h
  exact ⟨i, s, he, hs, hi⟩

/-- The only outcome that an attempt ever has is the value that its factory returns. -/
theorem ReturnsAt.outcome?_eq (h : ReturnsAt events n key a v) {m : Nat} {t : State K V E}
    (ht : At events m t) {o : Except E V} (ho : t.outcome? a = some o) : o = .ok v ∧ n < m := by
  obtain ⟨i, hends⟩ := h.exists_endsAt
  exact hends.outcome?_eq ht ho

/-- **Waiters agree.** A caller that has joined an attempt goes on waiting, has the value that the
factory returns, or has given up before that was published. -/
theorem ReturnsAt.waiter (h : ReturnsAt events n key a v) {m j : Nat}
    (hjoin : JoinedAt events m j a) {l : Nat} (hml : m ≤ l) {t : State K V E} (ht : At events l t) :
    (∃ timed, t.phase? j = some (.waiting a timed)) ∨
      t.phase? j = some (.returned (.ok (some v))) ∨
      (t.phase? j = some (.returned (.ok none)) ∧ GivesUpBetween events m l j a) := by
  obtain ⟨i, hends⟩ := h.exists_endsAt
  exact hends.waiter hjoin hml ht

/-- **The owner agrees.** It publishes the value and returns it. -/
theorem At.owner {i : Nat} (he : events[n]? = some (.finish i (.ok v))) {s : State K V E}
    (hs : At events n s) (hi : s.phase? i = some (.computing a)) {l : Nat} (hnl : n + 1 ≤ l)
    {t : State K V E} (ht : At events l t) :
    t.phase? i = some (.publishing a (.ok v)) ∨ t.phase? i = some (.returned (.ok (some v))) := by
  have hends : EndsAt events n i a (.ok v) := ⟨s, he, hs, hi⟩
  rcases hends.owner hnl ht with ⟨p, hp, hend⟩ | ⟨-, hr⟩
  · cases p with
    | publishing b o =>
      obtain ⟨rfl, rfl⟩ := Prod.mk.inj (Option.some.inj hend)
      exact .inl hp
    | called | computing | failed | waiting | returned => cases hend
  · exact .inr hr

/-- **Late callers agree.** A caller that comes when the value is published has asked, waits for the
attempt that is registered, or has the value; it never computes and never gives up. -/
theorem ReturnsAt.late (h : ReturnsAt events n key a v) {m : Nat} {timed : Bool} {s : State K V E}
    (he : events[m]? = some (.call key timed)) (hs : At events m s)
    (hv : s.outcome? a = some (.ok v)) {l : Nat} (hml : m + 1 ≤ l) {t : State K V E}
    (ht : At events l t) :
    t.phase? s.callers.length = some (.called key timed) ∨
      t.phase? s.callers.length = some (.waiting a timed) ∨
      t.phase? s.callers.length = some (.returned (.ok (some v))) := by
  have hnm := (h.outcome?_eq hs hv).2
  -- by the steps that follow the call, of which the first one is the call itself
  induction hml generalizing t with
  | refl =>
    have hrule : Step s (.call key timed) { s with callers := s.callers ++ [.called key timed] } :=
      .call key timed
    obtain rfl : t = { s with callers := s.callers ++ [.called key timed] } :=
      Option.some.inj ((step_of_step (hs.step he ht)).symm.trans (step_of_step hrule))
    exact .inl (by rw [State.phase?_call_eq, if_pos rfl])
  | @step l hml ih =>
    obtain ⟨u, hu⟩ := ht.exists_earlier (Nat.le_succ l)
    have hmu : m ≤ l := Nat.le_of_succ_le hml
    -- the value stays published, so the caller cannot give up
    have hpub := outcome?_run hs.reachable.inv hv (At.exists_run hmu hs hu)
    rcases hu.next ht with ⟨-, rfl⟩ | ⟨e, -, hstep⟩
    · exact ih hu
    · rcases ih hu with hc | hw | hr
      · rcases hstep.called hc (h.settled (Nat.lt_of_lt_of_le hnm hmu) hu).1 with hc | hw
        · exact .inl hc
        · exact .inr (.inl hw)
      · rcases hstep.waiting hw with hw | ⟨o, ho, hr⟩ | ⟨-, -, ho, -⟩
        · exact .inr (.inl hw)
        · obtain rfl := Option.some.inj (ho.symm.trans hpub)
          exact .inr (.inr hr)
        · rw [hpub] at ho
          cases ho
      · exact .inr (.inr (hstep.returned hr))

end Run

section Progress

variable [Expires E] {s : State K V E} {key : K} {a j : Nat} {v : V} {timed : Bool}

end Progress

/-! ### The theorem -/

instance : Expires Broken := ⟨fun _ => false⟩

end Depot.OnceCache
