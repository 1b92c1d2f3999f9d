import Depot.Proofs.OnceCache.Step
/-!
# The invariant of a cache that computes once

Between the locked steps of a caller the registry, the attempts and the callers fit together as
`Inv` says. `Fits` reads off the phase of one caller what must hold of its attempt: while the
factory runs, while its failure waits to be removed, and while its value waits to be published, the
attempt is registered and has no outcome; once its failure is removed, it is not registered, and
still has no outcome. The window between the removal of a failure and its publication is thus part
of the invariant: a new attempt for the key may be registered there, and the old one, which still
has its owner and its waiters, is never registered again.

An attempt has at most one owner, so only one caller ever moves it (`Inv.owner_unique`), and the
frame lemma `Fits.frame` says that the owners of other attempts do not notice.

From the invariant follow exclusion (`Reachable.eq_of_computing`), the absence of failures from the
registry (`Inv.clean`) and what removal does (`Inv.registered?_remove`).
-/

namespace Depot.OnceCache

variable {K V E : Type}

/-! ### Owners and their attempts -/

/-- The attempt that a caller in this phase owns. -/
def Phase.owned? : Phase K V E → Option Nat
  | .computing a => some a
  | .failed a _ => some a
  | .publishing a _ => some a
  | _ => none

variable [DecidableEq K]

/-- Is the attempt the one that is registered for its key? -/
def State.IsRegistered (s : State K V E) (a : Nat) : Prop :=
  ∃ key, s.keyOf? a = some key ∧ s.registered? key = some a

/-- What a phase says about the attempt that it is about. -/
def Fits (s : State K V E) : Phase K V E → Prop
  | .computing a => s.IsRegistered a ∧ s.outcome? a = none
  | .failed a _ => s.IsRegistered a ∧ s.outcome? a = none
  | .publishing a (.ok _) => s.IsRegistered a ∧ s.outcome? a = none
  | .publishing a (.error _) =>
    (∃ key, s.keyOf? a = some key ∧ s.registered? key ≠ some a) ∧ s.outcome? a = none
  | .waiting a _ => ∃ key, s.keyOf? a = some key
  | _ => True

/-- The invariant: the entries of the registry are attempts for their keys that have not failed,
every attempt has at most one owner, and every phase fits. -/
structure Inv (s : State K V E) : Prop where
  /-- An entry is an attempt for its key. -/
  keyed : ∀ {key a}, s.registered? key = some a → s.keyOf? a = some key
  /-- No entry has ended in a failure. -/
  clean : ∀ {key a e}, s.registered? key = some a → s.outcome? a ≠ some (.error e)
  /-- An attempt has one owner. -/
  owner_unique : ∀ {i j p q a}, s.phase? i = some p → s.phase? j = some q →
    p.owned? = some a → q.owned? = some a → i = j
  /-- Every phase says the truth about its attempt. -/
  fits : ∀ {i p}, s.phase? i = some p → Fits s p

section Fits

variable {s s' : State K V E} {p : Phase K V E} {a : Nat}

/-- An owned attempt has a key. -/
theorem Fits.exists_keyOf? (h : Fits s p) (ha : p.owned? = some a) :
    ∃ key, s.keyOf? a = some key := by
  cases p with
  | called | waiting | returned => cases ha
  | computing | failed =>
    obtain rfl := Option.some.inj ha
    obtain ⟨key, hkey, -⟩ := h.1
    exact ⟨key, hkey⟩
  | publishing b o =>
    -- a value is published by an attempt that is registered, a failure by one that is not any more
    obtain rfl := Option.some.inj ha
    cases o with
    | ok v =>
      obtain ⟨key, hkey, -⟩ := h.1
      exact ⟨key, hkey⟩
    | error e =>
      obtain ⟨key, hkey, -⟩ := h.1
      exact ⟨key, hkey⟩

/-- An owned attempt has no outcome yet. -/
theorem Fits.outcome?_eq_none (h : Fits s p) (ha : p.owned? = some a) : s.outcome? a = none := by
  cases p with
  | called | waiting | returned => cases ha
  | computing | failed =>
    obtain rfl := Option.some.inj ha
    exact h.2
  | publishing b o =>
    obtain rfl := Option.some.inj ha
    cases o <;> exact h.2

/-- An attempt stays registered where what is registered for its key stays. -/
theorem State.IsRegistered.frame (h : s.IsRegistered a)
    (hkey : ∀ b key, s.keyOf? b = some key → s'.keyOf? b = some key)
    (hreg : ∀ key, s.keyOf? a = some key →
      (s'.registered? key = some a ↔ s.registered? key = some a)) :
    s'.IsRegistered a := by
  obtain ⟨key, ha, hr⟩ := h
  exact ⟨key, hkey a key ha, (hreg key ha).mpr hr⟩

/-- **Frame.** A phase fits as long as keys stay and its own attempt, if it owns one, is left
alone. A caller that waits needs the key of its attempt alone, so it does not matter to it that the
attempt is removed or published meanwhile. -/
theorem Fits.frame (h : Fits s p) (hkey : ∀ b key, s.keyOf? b = some key → s'.keyOf? b = some key)
    (hown : ∀ b, p.owned? = some b → s'.outcome? b = s.outcome? b ∧
      ∀ key, s.keyOf? b = some key → (s'.registered? key = some b ↔ s.registered? key = some b)) :
    Fits s' p := by
  cases p with
  | called | returned => trivial
  | waiting b timed =>
    obtain ⟨key, hb⟩ := h
    exact ⟨key, hkey b key hb⟩
  | computing b | failed b _ =>
    obtain ⟨ho, hreg⟩ := hown b rfl
    exact ⟨h.1.frame hkey hreg, ho.trans h.2⟩
  | publishing b o =>
    obtain ⟨ho, hreg⟩ := hown b rfl
    cases o with
    | ok v => exact ⟨h.1.frame hkey hreg, ho.trans h.2⟩
    | error e =>
      obtain ⟨⟨key, hb, hne⟩, hnone⟩ := h
      exact ⟨⟨key, hkey b key hb, fun hr => hne ((hreg key hb).mp hr)⟩, ho.trans hnone⟩

end Fits

/-! ### Every step keeps the invariant -/

theorem Inv.initial : Inv (State.initial : State K V E) where
  keyed h := by cases h
  clean h := by cases h
  owner_unique h := by cases h
  fits h := by cases h

section Step

variable {s s' : State K V E} {i : Nat} {p q : Phase K V E}

omit [DecidableEq K] in
/-- A caller of a state after a move is the one that moved, or stands where it stood. -/
theorem phase?_move_cases {u : State K V E} (hu : ∀ j, u.phase? j = s.phase? j)
    (hp : s.phase? i = some p) {j : Nat} {r : Phase K V E}
    (h : (u.move i q).phase? j = some r) : (j = i ∧ r = q) ∨ (j ≠ i ∧ s.phase? j = some r) := by
  by_cases hj : j = i
  · subst hj
    rw [State.phase?_move_self ((hu j).trans hp)] at h
    exact .inl ⟨rfl, (Option.some.inj h).symm⟩
  · rw [State.phase?_move_ne hj, hu] at h
    exact .inr ⟨hj, h⟩

/-- Owners stay unique when a caller moves without taking over another one's attempt. -/
theorem Inv.owner_unique_move (h : Inv s) {u : State K V E} (hu : ∀ j, u.phase? j = s.phase? j)
    (hp : s.phase? i = some p)
    (hq : ∀ a, q.owned? = some a → p.owned? = some a ∨ s.keyOf? a = none)
    {j k a : Nat} {r t : Phase K V E} (hr : (u.move i q).phase? j = some r)
    (ht : (u.move i q).phase? k = some t) (hra : r.owned? = some a) (hta : t.owned? = some a) :
    j = k := by
  -- an attempt that another caller owns has a key, so it is not one that `q` brings
  have hother : ∀ {l : Nat} {w : Phase K V E}, s.phase? l = some w → w.owned? = some a →
      q.owned? = some a → l = i := by
    intro l w hw hwa hqa
    rcases hq a hqa with hpa | hnone
    · exact h.owner_unique hw hp hwa hpa
    · obtain ⟨key, hkey⟩ := (h.fits hw).exists_keyOf? hwa
      rw [hnone] at hkey
      cases hkey
  rcases phase?_move_cases hu hp hr with ⟨hj, hrq⟩ | ⟨-, hr'⟩
  · rcases phase?_move_cases hu hp ht with ⟨hk, -⟩ | ⟨-, ht'⟩
    · exact hj.trans hk.symm
    · exact hj.trans (hother ht' hta (hrq ▸ hra)).symm
  · rcases phase?_move_cases hu hp ht with ⟨hk, htq⟩ | ⟨-, ht'⟩
    · exact (hother hr' hra (htq ▸ hta)).trans hk.symm
    · exact h.owner_unique hr' ht' hra hta

/-- The invariant after a move that changes neither the registry nor the attempts. -/
theorem Inv.move (h : Inv s) (hp : s.phase? i = some p)
    (hq : ∀ a, q.owned? = some a → p.owned? = some a) (hfit : Fits s q) : Inv (s.move i q) where
  keyed := h.keyed
  clean := h.clean
  owner_unique := h.owner_unique_move (fun _ => rfl) hp fun a ha => .inl (hq a ha)
  fits hr := by
    rcases phase?_move_cases (fun _ => rfl) hp hr with ⟨-, rfl⟩ | ⟨-, hr⟩
    · exact hfit.frame (fun _ _ hkey => hkey) fun _ _ => ⟨rfl, fun _ _ => Iff.rfl⟩
    · exact (h.fits hr).frame (fun _ _ hkey => hkey) fun _ _ => ⟨rfl, fun _ _ => Iff.rfl⟩

/-- The invariant after a new attempt is registered and its owner begins to compute. -/
theorem Inv.install (h : Inv s) {key : K} {timed : Bool}
    (hp : s.phase? i = some (.called key timed)) (hnone : s.registered? key = none) :
    Inv ((s.register key).move i (.computing s.attempts.length)) := by
  have hlen : s.keyOf? s.attempts.length = none := by simp [State.keyOf?]
  refine ⟨?_, ?_, ?_, ?_⟩
  · -- entries are attempts for their keys: the new one, or one from before
    intro k a ha
    rw [State.registered?_move, State.registered?_register hnone] at ha
    rw [State.keyOf?_move, State.keyOf?_register]
    split at ha
    · next hk =>
      obtain rfl := Option.some.inj ha
      rw [if_pos rfl, hk]
    · have hka := h.keyed ha
      rw [if_neg (Nat.ne_of_lt (State.lt_length_of_keyOf? hka)), hka]
  · intro k a e ha
    rw [State.registered?_move, State.registered?_register hnone] at ha
    rw [State.outcome?_move, State.outcome?_register]
    split at ha
    · -- the new attempt has no outcome at all
      obtain rfl := Option.some.inj ha
      rw [State.outcome?_length]
      intro h
      cases h
    · exact h.clean ha
  · intro j k r t a hr ht
    refine h.owner_unique_move (State.phase?_register key) hp (fun b hb => ?_) hr ht
    -- the caller owns nothing before, and now an attempt that nobody can own
    obtain rfl := Option.some.inj hb
    exact .inr hlen
  · intro j r hr
    rcases phase?_move_cases (State.phase?_register key) hp hr with ⟨-, rfl⟩ | ⟨-, hr⟩
    · refine ⟨⟨key, ?_, ?_⟩, ?_⟩
      · rw [State.keyOf?_move, State.keyOf?_register, if_pos rfl]
      · rw [State.registered?_move, State.registered?_register hnone, if_pos rfl]
      · rw [State.outcome?_move, State.outcome?_register, State.outcome?_length]
    · -- the others do not own the new attempt, and what was registered for its key was nothing
      refine (h.fits hr).frame (fun b k hb => State.keyOf?_register_of_some hb key)
        fun b hb => ⟨State.outcome?_register key b, fun k hk => ?_⟩
      rw [State.registered?_move, State.registered?_register hnone]
      split
      · next hkk =>
        subst hkk
        have hne : s.attempts.length ≠ b := (Nat.ne_of_lt (State.lt_length_of_keyOf? hk)).symm
        simp [hnone, hne]
      · exact Iff.rfl

/-- The invariant after a failed attempt is removed. -/
theorem Inv.remove (h : Inv s) {a : Nat} {e : E} (hp : s.phase? i = some (.failed a e)) :
    Inv ((s.unregister a).move i (.publishing a (.error e))) := by
  obtain ⟨⟨key, hkey, hreg⟩, hnone⟩ := h.fits hp
  -- the attempt is registered for its key, so its entry is the one that goes
  have hreg' : ∀ k, (s.unregister a).registered? k =
      if k = key then none else s.registered? k := by
    intro k
    rw [State.registered?_unregister hkey]
    by_cases hk : k = key <;> simp [hk, hreg]
  refine ⟨?_, ?_, ?_, ?_⟩
  · intro k b hb
    rw [State.registered?_move, hreg'] at hb
    split at hb
    · cases hb
    · rw [State.keyOf?_move, State.keyOf?_unregister]
      exact h.keyed hb
  · intro k b e' hb
    rw [State.registered?_move, hreg'] at hb
    split at hb
    · cases hb
    · rw [State.outcome?_move, State.outcome?_unregister]
      exact h.clean hb
  · intro j k r t b hr ht
    refine h.owner_unique_move (State.phase?_unregister a) hp (fun c hc => ?_) hr ht
    exact .inl hc
  · intro j r hr
    rcases phase?_move_cases (State.phase?_unregister a) hp hr with ⟨-, rfl⟩ | ⟨hj, hr⟩
    · -- the caller that moves still has its attempt, with a key that is now free
      refine ⟨⟨key, ?_, ?_⟩, ?_⟩
      · rw [State.keyOf?_move, State.keyOf?_unregister]
        exact hkey
      · rw [State.registered?_move, hreg', if_pos rfl]
        intro h
        cases h
      · rw [State.outcome?_move, State.outcome?_unregister]
        exact hnone
    · refine (h.fits hr).frame (fun b k hb => ?_) fun b hb => ⟨?_, fun k hk => ?_⟩
      · rw [State.keyOf?_move, State.keyOf?_unregister]
        exact hb
      · rw [State.outcome?_move, State.outcome?_unregister]
      · -- the owner of another attempt for the key cannot be registered beside this one
        rw [State.registered?_move, hreg']
        split
        · next hkk =>
          have hba : a ≠ b := by
            rintro rfl
            exact hj (h.owner_unique hr hp hb rfl)
          subst hkk
          simp [hreg, hba]
        · exact Iff.rfl

/-- The invariant after an outcome is published. -/
theorem Inv.publish (h : Inv s) {a : Nat} {o : Except E V}
    (hp : s.phase? i = some (.publishing a o)) :
    Inv ((s.publishOutcome a o).move i (.returned (ownerResult o))) := by
  obtain ⟨key, hkey⟩ := (h.fits hp).exists_keyOf? rfl
  have ho := State.outcome?_publishOutcome o hkey
  refine ⟨?_, ?_, ?_, ?_⟩
  · intro k b hb
    rw [State.keyOf?_move, State.keyOf?_publishOutcome]
    exact h.keyed hb
  · intro k b e hb
    rw [State.registered?_move, State.registered?_publishOutcome] at hb
    rw [State.outcome?_move, ho]
    split
    · next hba =>
      subst hba
      rintro heq
      obtain rfl := Option.some.inj heq
      -- a failure is published only after its entry is removed
      obtain ⟨⟨k', hk', hne⟩, -⟩ := h.fits hp
      obtain rfl := Option.some.inj (hk'.symm.trans (h.keyed hb))
      exact hne hb
    · exact h.clean hb
  · intro j k r t b hr ht
    exact h.owner_unique_move (fun _ => rfl) hp (fun _ hb => by cases hb) hr ht
  · intro j r hr
    rcases phase?_move_cases (State.phase?_publishOutcome a · o) hp hr with ⟨-, rfl⟩ | ⟨hj, hr'⟩
    · trivial
    · -- what another caller owns is another attempt, which is not published here
      refine (h.fits hr').frame (fun b k hb => ?_) fun b hb => ⟨?_, fun k _ => Iff.rfl⟩
      · rw [State.keyOf?_move, State.keyOf?_publishOutcome]
        exact hb
      · have hba : b ≠ a := by
          rintro rfl
          exact hj (h.owner_unique hr' hp hb rfl)
        rw [State.outcome?_move, ho, if_neg hba]

/-- The invariant after a caller comes. -/
theorem Inv.call (h : Inv s) (key : K) (timed : Bool) :
    Inv { s with callers := s.callers ++ [.called key timed] } := by
  -- a caller is one from before, or the new one, which owns nothing
  have hold : ∀ {j : Nat} {r : Phase K V E},
      State.phase? { s with callers := s.callers ++ [.called key timed] } j = some r →
      s.phase? j = some r ∨ r = .called key timed := by
    intro j r hr
    rw [State.phase?_call_eq] at hr
    split at hr
    · exact .inr (Option.some.inj hr).symm
    · exact .inl hr
  refine ⟨h.keyed, h.clean, ?_, ?_⟩
  · intro j k r t a hr ht hra hta
    rcases hold hr with hr | rfl
    · rcases hold ht with ht | rfl
      · exact h.owner_unique hr ht hra hta
      · cases hta
    · cases hra
  · intro j r hr
    rcases hold hr with hr | rfl
    · exact (h.fits hr).frame (fun _ _ hkey => hkey) fun _ _ => ⟨rfl, fun _ _ => Iff.rfl⟩
    · trivial

/-- Removing a failed attempt takes its own entry out of the registry and leaves all others. -/
theorem Inv.registered?_remove (h : Inv s) {i a : Nat} {e : E}
    (hp : s.phase? i = some (.failed a e)) (key : K) (b : Nat) :
    (s.unregister a).registered? key = some b ↔ s.registered? key = some b ∧ b ≠ a := by
  obtain ⟨⟨k, hk, hreg⟩, -⟩ := h.fits hp
  rw [State.registered?_unregister hk]
  -- only the entry under the key of the attempt is removed
  by_cases hkey : key = k
  · subst hkey
    rw [if_pos ⟨rfl, hreg⟩, hreg]
    constructor
    · intro hb
      cases hb
    · rintro ⟨hb, hne⟩
      exact absurd (Option.some.inj hb).symm hne
  · rw [if_neg fun hc => hkey hc.1]
    constructor
    · intro hb
      refine ⟨hb, ?_⟩
      rintro rfl
      exact hkey (Option.some.inj ((h.keyed hb).symm.trans hk))
    · exact And.left

variable [Expires E]

/-- **Every step keeps the invariant.** -/
theorem Inv.step {e : Event K V E} (h : Inv s) (hstep : Step s e s') : Inv s' := by
  -- most steps move one caller; to install, to remove and to publish changes the table as well
  cases hstep with
  | call key timed => exact h.call key timed
  | join hp ha => exact h.move hp nofun ⟨_, h.keyed ha⟩
  | install hp ha => exact h.install hp ha
  | finish hp =>
    have hfit := h.fits hp
    exact h.move hp (fun _ ha => ha) hfit
  | fail hp =>
    have hfit := h.fits hp
    exact h.move hp (fun _ ha => ha) hfit
  | remove hp => exact h.remove hp
  | publish hp => exact h.publish hp
  | wake hp ho => exact h.move hp nofun trivial
  | giveUp hp ho => exact h.move hp nofun trivial

end Step

variable [Expires E] {s : State K V E}

/-- What every step keeps while the invariant holds, every run keeps. -/
theorem Inv.run_induction {motive : State K V E → Prop}
    (hstep : ∀ {s s' : State K V E} {e : Event K V E}, Inv s → Step s e s' → motive s → motive s')
    (hinv : Inv s) {events : List (Event K V E)} {t : State K V E} (hrun : run s events = some t)
    (hs : motive s) : motive t := by
  have hboth : Inv t ∧ motive t :=
    OnceCache.run_induction (motive := fun u => Inv u ∧ motive u)
      (fun h hu => ⟨hu.1.step h, hstep hu.1 h hu.2⟩) hrun ⟨hinv, hs⟩
  exact hboth.2

/-- The invariant holds in every reachable state. -/
theorem Reachable.inv (h : Reachable s) : Inv s := by
  obtain ⟨events, hrun⟩ := h
  exact run_induction (fun hstep hinv => hinv.step hstep) hrun Inv.initial

end Depot.OnceCache
