import Mathlib.Data.Nat.Count
import Depot.Proofs.OnceCache.Invariant
/-!
# What the callers of one key see

All keys share one registry, one list of attempts and one list of callers. The callers of one key
see their own part of them: what is registered for their key, the attempts for it, and themselves.
`IsView key keys s t` says that the state `t` is this part of the state `s`, with attempts and
callers numbered among those of the key. The keys of the callers are no part of a state, so they are
given; `Tracks` says that a state agrees with them, which every step keeps (`Tracks.step`).

Each update of a state is seen as the same update of its view where it is about the key, and is not
seen at all where it is about another key. In particular the entry of another key can be removed
without changing the view (`IsView.unregister_other`).
-/

namespace Depot.OnceCache

variable {K V E : Type}

/-! ### Numbers among those of one key -/

/-- The same phase about an attempt that has another number. -/
def Phase.renumber (f : Nat → Nat) : Phase K V E → Phase K V E
  | .called key timed => .called key timed
  | .computing a => .computing (f a)
  | .failed a e => .failed (f a) e
  | .publishing a o => .publishing (f a) o
  | .waiting a timed => .waiting (f a) timed
  | .returned r => .returned r

/-- The attempt that a phase is about. -/
def Phase.attempt? : Phase K V E → Option Nat
  | .computing a => some a
  | .failed a _ => some a
  | .publishing a _ => some a
  | .waiting a _ => some a
  | _ => none

/-- Phases that are about attempts with the same numbers are the same. -/
theorem Phase.renumber_congr {p : Phase K V E} {f g : Nat → Nat}
    (h : ∀ a, p.attempt? = some a → f a = g a) : p.renumber f = p.renumber g := by
  cases p with
  | called | returned => rfl
  | computing a | failed a | publishing a | waiting a => simp [renumber, h a rfl]

/-- A phase in which a caller has its answer is about no attempt. -/
theorem Phase.renumber_eq_returned_iff {p : Phase K V E} {f : Nat → Nat}
    {r : Except E (Option V)} : p.renumber f = .returned r ↔ p = .returned r := by
  cases p <;> simp [renumber]

variable [DecidableEq K]

/-- The number of a caller or an attempt among those of one key: how many before it have the
key. -/
def rank (key : K) (keyOf? : Nat → Option K) (n : Nat) : Nat :=
  Nat.count (fun m => keyOf? m = some key) n

section Rank

variable {key : K} {f g : Nat → Option K} {m n : Nat}

theorem rank_succ_self (h : f n = some key) : rank key f (n + 1) = rank key f n + 1 :=
  Nat.count_succ_eq_succ_count_iff.mpr h

theorem rank_succ_of_ne (h : f n ≠ some key) : rank key f (n + 1) = rank key f n :=
  Nat.count_succ_eq_count_iff.mpr h

/-- Who has the key has a number of its own. -/
theorem rank_inj (hm : f m = some key) (hn : f n = some key) :
    rank key f m = rank key f n ↔ m = n := by
  refine ⟨fun h => ?_, fun h => h ▸ rfl⟩
  exact Nat.count_injective (p := fun m => f m = some key) hm hn h

/-- The number depends only on the keys of those before. -/
theorem rank_congr (h : ∀ m, m < n → f m = g m) : rank key f n = rank key g n := by
  apply Nat.le_antisymm
  · exact Nat.count_mono_left fun m hm hf => (h m hm).symm.trans hf
  · exact Nat.count_mono_left fun m hm hg => (h m hm).trans hg

/-- Every smaller number is that of somebody before who has the key. -/
theorem exists_rank_eq {j : Nat} (h : j < rank key f n) :
    ∃ m, m < n ∧ f m = some key ∧ rank key f m = j := by
  induction n with
  | zero => cases h
  | succ n ih =>
    by_cases hkey : f n = some key
    · rw [rank_succ_self hkey] at h
      rcases Nat.lt_succ_iff_lt_or_eq.mp h with hlt | heq
      · obtain ⟨m, hmn, hm⟩ := ih hlt
        exact ⟨m, Nat.lt_succ_of_lt hmn, hm⟩
      · exact ⟨n, Nat.lt_succ_self n, hkey, heq.symm⟩
    · rw [rank_succ_of_ne hkey] at h
      obtain ⟨m, hmn, hm⟩ := ih h
      exact ⟨m, Nat.lt_succ_of_lt hmn, hm⟩

end Rank

/-! ### Callers keep their keys -/

/-- The key that a new caller asks for. -/
def Event.asked? : Event K V E → Option K
  | .call key _ => some key
  | _ => none

/-- Callers stand where a caller of their key can stand. -/
structure Tracks (keys : List K) (s : State K V E) : Prop where
  /-- A caller asks for its key. -/
  called : ∀ {i key timed}, s.phase? i = some (.called key timed) → keys[i]? = some key
  /-- An attempt that a caller has to do with is one for its key. -/
  attempt : ∀ {i p a}, s.phase? i = some p → p.attempt? = some a →
    ∃ key, s.keyOf? a = some key ∧ keys[i]? = some key

section Tracks

variable {keys : List K} {s s' : State K V E} {i : Nat} {p q : Phase K V E}

omit [DecidableEq K] in
theorem Tracks.initial : Tracks keys (State.initial : State K V E) where
  called h := by cases h
  attempt h := by cases h

omit [DecidableEq K] in
/-- Callers keep their keys when one of them moves on with an attempt for its key. -/
theorem Tracks.move (h : Tracks keys s) {u : State K V E} (hu : ∀ j, u.phase? j = s.phase? j)
    (hkey : ∀ a key, s.keyOf? a = some key → u.keyOf? a = some key) (hp : s.phase? i = some p)
    (hq : ∀ key timed, q ≠ .called key timed)
    (hqa : ∀ a, q.attempt? = some a → ∃ key, u.keyOf? a = some key ∧ keys[i]? = some key) :
    Tracks keys (u.move i q) where
  called hr := by
    rcases phase?_move_cases hu hp hr with ⟨-, heq⟩ | ⟨-, hr⟩
    · exact absurd heq.symm (hq _ _)
    · exact h.called hr
  attempt hr ha := by
    rcases phase?_move_cases hu hp hr with ⟨rfl, rfl⟩ | ⟨-, hr⟩
    · exact hqa _ ha
    · obtain ⟨key, hb, hj⟩ := h.attempt hr ha
      exact ⟨key, hkey _ key hb, hj⟩

omit [DecidableEq K] in
/-- Callers keep their keys when another one comes. -/
theorem Tracks.call (h : Tracks keys s) {key : K} (hnew : keys[s.callers.length]? = some key)
    (timed : Bool) : Tracks keys { s with callers := s.callers ++ [.called key timed] } where
  called hr := by
    rw [State.phase?_call_eq] at hr
    split at hr
    · next hj =>
      obtain ⟨rfl, -⟩ := Phase.called.inj (Option.some.inj hr)
      exact hj ▸ hnew
    · exact h.called hr
  attempt hr ha := by
    rw [State.phase?_call_eq] at hr
    split at hr
    · obtain rfl := Option.some.inj hr
      cases ha
    · exact h.attempt hr ha

variable [Expires E] {e : Event K V E}

/-- **Every step keeps the keys of callers.** -/
theorem Tracks.step (h : Tracks keys s) (hinv : Inv s) (hstep : Step s e s')
    (hnew : ∀ key, e.asked? = some key → keys[s.callers.length]? = some key) : Tracks keys s' := by
  -- an attempt is got by looking its key up, and kept until it is over
  cases hstep with
  | call key timed => exact h.call (hnew key rfl) timed
  | @join i a key timed hp ha =>
    refine h.move (fun _ => rfl) (fun _ _ hb => hb) hp nofun fun b hb => ?_
    obtain rfl := Option.some.inj hb
    exact ⟨key, hinv.keyed ha, h.called hp⟩
  | @install i key timed hp hnone =>
    refine h.move (State.phase?_register key)
      (fun b k hb => State.keyOf?_register_of_some hb key) hp nofun fun b hb => ?_
    obtain rfl := Option.some.inj hb
    exact ⟨key, by rw [State.keyOf?_register, if_pos rfl], h.called hp⟩
  | finish hp => exact h.move (fun _ => rfl) (fun _ _ hb => hb) hp nofun fun b hb => h.attempt hp hb
  | fail hp => exact h.move (fun _ => rfl) (fun _ _ hb => hb) hp nofun fun b hb => h.attempt hp hb
  | @remove i a e hp =>
    have hkey : ∀ b k, s.keyOf? b = some k → (s.unregister a).keyOf? b = some k := by simp
    refine h.move (State.phase?_unregister a) hkey hp nofun fun b hb => ?_
    obtain ⟨key, hb, hi⟩ := h.attempt hp hb
    exact ⟨key, hkey b key hb, hi⟩
  | publish hp => exact h.move (fun _ => rfl) (by simp) hp nofun nofun
  | wake hp ho => exact h.move (fun _ => rfl) (fun _ _ hb => hb) hp nofun nofun
  | giveUp hp ho => exact h.move (fun _ => rfl) (fun _ _ hb => hb) hp nofun nofun

end Tracks

/-! ### The cache as the callers of one key see it -/

/-- The state `t` is what the callers of the key see of the state `s`: their own attempts and
themselves, numbered among themselves, and what is registered for the key. -/
structure IsView (key : K) (keys : List K) (s t : State K V E) : Prop where
  -- the next attempt for the key and the next caller that asks for it get the next numbers
  attempts : t.attempts.length = rank key s.keyOf? s.attempts.length
  callers : t.callers.length = rank key (keys[·]?) s.callers.length
  -- an attempt for the key is registered for it, has it and has an outcome where it does in `s`
  registered? : t.registered? key = (s.registered? key).map (rank key s.keyOf?)
  keyOf? : ∀ {a}, s.keyOf? a = some key → t.keyOf? (rank key s.keyOf? a) = some key
  outcome? : ∀ {a}, s.keyOf? a = some key → t.outcome? (rank key s.keyOf? a) = s.outcome? a
  -- callers of the key stand where they stand in `s`; nothing is said about the others
  phase? : ∀ {i}, keys[i]? = some key →
    t.phase? (rank key (keys[·]?) i) = (s.phase? i).map (Phase.renumber (rank key s.keyOf?))

section View

variable {key : K} {keys : List K} {s t : State K V E} {i a : Nat} {p q : Phase K V E}

theorem IsView.initial : IsView key keys (State.initial : State K V E) State.initial where
  attempts := rfl
  callers := rfl
  registered? := rfl
  keyOf? h := by cases h
  outcome? h := by cases h
  phase? h := rfl

/-- A caller of the key is seen where it stands. -/
theorem IsView.phase?_eq_some (h : IsView key keys s t) (hi : keys[i]? = some key)
    (hp : s.phase? i = some p) :
    t.phase? (rank key (keys[·]?) i) = some (p.renumber (rank key s.keyOf?)) := by
  rw [h.phase? hi, hp, Option.map_some]

/-- A computation of the key is seen to be under way when it is. -/
theorem IsView.isLoading (h : IsView key keys s t) (hinv : Inv s) :
    t.isLoading key = s.isLoading key := by
  unfold State.isLoading
  rw [h.registered?]
  cases ha : s.registered? key with
  | none => rfl
  | some a =>
    simp only [Option.map_some]
    rw [h.outcome? (hinv.keyed ha)]

/-- A caller of the key moves on, and is seen to. -/
theorem IsView.move (h : IsView key keys s t) (hi : keys[i]? = some key) (hp : s.phase? i = some p)
    (q : Phase K V E) : IsView key keys (s.move i q)
      (t.move (rank key (keys[·]?) i) (q.renumber (rank key s.keyOf?))) where
  attempts := h.attempts
  callers := by
    simp only [State.move, List.length_set]
    exact h.callers
  registered? := h.registered?
  keyOf? := h.keyOf?
  outcome? := h.outcome?
  phase? := by
    intro j hj
    by_cases hji : j = i
    · subst hji
      rw [State.phase?_move_self (h.phase?_eq_some hi hp), State.phase?_move_self hp]
      rfl
    · have hne := mt (rank_inj hj hi).mp hji
      rw [State.phase?_move_ne hne, State.phase?_move_ne hji]
      exact h.phase? hj

/-- A caller of another key moves on, and nothing is seen. -/
theorem IsView.move_other (h : IsView key keys s t) (hi : keys[i]? ≠ some key) :
    IsView key keys (s.move i q) t where
  attempts := h.attempts
  callers := by
    simp only [State.move, List.length_set]
    exact h.callers
  registered? := h.registered?
  keyOf? := h.keyOf?
  outcome? := h.outcome?
  phase? := by
    intro j hj
    have hji : j ≠ i := by
      rintro rfl
      exact hi hj
    rw [State.phase?_move_ne hji]
    exact h.phase? hj

/-- A caller of the key comes, and is seen. -/
theorem IsView.call (h : IsView key keys s t) (hnew : keys[s.callers.length]? = some key)
    (timed : Bool) : IsView key keys { s with callers := s.callers ++ [.called key timed] }
      { t with callers := t.callers ++ [.called key timed] } where
  attempts := h.attempts
  callers := by
    simp only [List.length_append, List.length_singleton]
    rw [rank_succ_self hnew, h.callers]
  registered? := h.registered?
  keyOf? := h.keyOf?
  outcome? := h.outcome?
  phase? := by
    intro j hj
    rw [State.phase?_call_eq, State.phase?_call_eq, h.callers]
    by_cases hjn : j = s.callers.length
    · rw [if_pos hjn, if_pos ((rank_inj hj hnew).mpr hjn)]
      rfl
    · rw [if_neg hjn, if_neg (mt (rank_inj hj hnew).mp hjn)]
      exact h.phase? hj

/-- A caller of another key comes, and nothing is seen. -/
theorem IsView.call_other (h : IsView key keys s t) {c : Phase K V E}
    (hnew : keys[s.callers.length]? ≠ some key) :
    IsView key keys { s with callers := s.callers ++ [c] } t where
  attempts := h.attempts
  callers := by
    simp only [List.length_append, List.length_singleton]
    rw [rank_succ_of_ne hnew, h.callers]
  registered? := h.registered?
  keyOf? := h.keyOf?
  outcome? := h.outcome?
  phase? := by
    intro j hj
    have hjn : j ≠ s.callers.length := by
      rintro rfl
      exact hnew hj
    rw [State.phase?_call_eq, if_neg hjn]
    exact h.phase? hj

/-- Attempts keep their numbers among those of a key when a new one is registered. -/
theorem rank_register {other : K} (ha : a ≤ s.attempts.length) :
    rank key (s.register other).keyOf? a = rank key s.keyOf? a := by
  refine rank_congr fun b hb => ?_
  rw [State.keyOf?_register, if_neg (Nat.ne_of_lt (Nat.lt_of_lt_of_le hb ha))]

/-- Callers are seen where they were when a new attempt is registered. -/
theorem IsView.phase?_register (h : IsView key keys s t) (htracks : Tracks keys s) {other : K}
    (hi : keys[i]? = some key) : t.phase? (rank key (keys[·]?) i) =
      ((s.register other).phase? i).map (Phase.renumber (rank key (s.register other).keyOf?)) := by
  rw [h.phase? hi, State.phase?_register]
  refine Option.map_congr fun p hp => Phase.renumber_congr fun a ha => ?_
  obtain ⟨_, hkey, -⟩ := htracks.attempt hp ha
  exact (rank_register (Nat.le_of_lt (State.lt_length_of_keyOf? hkey))).symm

/-- An attempt for the key is registered, and is seen. -/
theorem IsView.register (h : IsView key keys s t) (htracks : Tracks keys s)
    (hnone : s.registered? key = none) : IsView key keys (s.register key) (t.register key) := by
  have hnew : (s.register key).keyOf? s.attempts.length = some key := by
    rw [State.keyOf?_register, if_pos rfl]
  have hlast : rank key (s.register key).keyOf? s.attempts.length = t.attempts.length := by
    rw [rank_register le_rfl, h.attempts]
  -- an attempt for the key is the new one, or one from before with the number that it had
  have hcases : ∀ {a}, (s.register key).keyOf? a = some key → a = s.attempts.length ∨
      (s.keyOf? a = some key ∧
        rank key (s.register key).keyOf? a = rank key s.keyOf? a) := by
    intro a ha
    rw [State.keyOf?_register] at ha
    split at ha
    · next heq => exact .inl heq
    · exact .inr ⟨ha, rank_register (Nat.le_of_lt (State.lt_length_of_keyOf? ha))⟩
  have hview : t.registered? key = none := by rw [h.registered?, hnone, Option.map_none]
  -- the lengths, what is registered, keys and outcomes
  refine ⟨?_, h.callers, ?_, fun {a} ha => ?_, fun {a} ha => ?_, h.phase?_register htracks⟩
  · rw [State.length_attempts_register, State.length_attempts_register, rank_succ_self hnew, hlast]
  · rw [State.registered?_register hnone, if_pos rfl, State.registered?_register hview, if_pos rfl,
      Option.map_some, hlast]
  · rw [State.keyOf?_register]
    rcases hcases ha with rfl | ⟨ha, hrank⟩
    · rw [if_pos hlast]
    · rw [hrank, h.keyOf? ha, ite_self]
  · rw [State.outcome?_register, State.outcome?_register]
    rcases hcases ha with rfl | ⟨ha, hrank⟩
    · rw [hlast, State.outcome?_length, State.outcome?_length]
    · rw [hrank, h.outcome? ha]

/-- An attempt for another key is registered, and nothing is seen. -/
theorem IsView.register_other (h : IsView key keys s t) (hinv : Inv s) (htracks : Tracks keys s)
    {other : K} (hne : other ≠ key) (hnone : s.registered? other = none) :
    IsView key keys (s.register other) t := by
  have hnew : (s.register other).keyOf? s.attempts.length ≠ some key := by
    rw [State.keyOf?_register, if_pos rfl]
    exact fun heq => hne (Option.some.inj heq)
  have hrank : ∀ {a}, s.keyOf? a = some key →
      rank key (s.register other).keyOf? a = rank key s.keyOf? a := fun ha =>
    rank_register (Nat.le_of_lt (State.lt_length_of_keyOf? ha))
  -- the attempts for the key are those from before
  have hold : ∀ {a}, (s.register other).keyOf? a = some key → s.keyOf? a = some key := by
    intro a ha
    rw [State.keyOf?_register] at ha
    split at ha
    · exact absurd (Option.some.inj ha) hne
    · exact ha
  refine ⟨?_, h.callers, ?_, fun {a} ha => ?_, fun {a} ha => ?_, h.phase?_register htracks⟩
  · rw [State.length_attempts_register, rank_succ_of_ne hnew, rank_register le_rfl, h.attempts]
  · rw [State.registered?_register hnone, if_neg hne.symm, h.registered?]
    refine Option.map_congr fun a ha => ?_
    exact (hrank (hinv.keyed ha)).symm
  · rw [hrank (hold ha), h.keyOf? (hold ha)]
  · rw [hrank (hold ha), h.outcome? (hold ha), State.outcome?_register]

/-- What is seen when neither attempts nor callers come or move, and what is registered or published
for the key changes alike. -/
theorem IsView.frame (h : IsView key keys s t) {s' t' : State K V E}
    (hs : s'.keyOf? = s.keyOf?) (ht : t'.keyOf? = t.keyOf?)
    (hattempts : s'.attempts.length = s.attempts.length ∧ t'.attempts.length = t.attempts.length)
    (hcallers : s'.callers = s.callers ∧ t'.callers = t.callers)
    (hregistered : t'.registered? key = (s'.registered? key).map (rank key s.keyOf?))
    (houtcome : ∀ {a}, s.keyOf? a = some key →
      t'.outcome? (rank key s.keyOf? a) = s'.outcome? a) : IsView key keys s' t' := by
  refine ⟨?_, ?_, ?_, fun {a} ha => ?_, fun {a} ha => ?_, fun {i} hi => ?_⟩
  · rw [hattempts.1, hattempts.2, hs, h.attempts]
  · rw [hcallers.1, hcallers.2, h.callers]
  · rw [hs, hregistered]
  · rw [hs] at ha ⊢
    rw [ht, h.keyOf? ha]
  · rw [hs] at ha ⊢
    exact houtcome ha
  · have hphase := h.phase? hi
    unfold State.phase? at hphase ⊢
    rw [hs, hcallers.1, hcallers.2, hphase]

/-- The entry of the key is removed, and is seen to be. -/
theorem IsView.unregister (h : IsView key keys s t) (ha : s.keyOf? a = some key)
    (hreg : s.registered? key = some a) :
    IsView key keys (s.unregister a) (t.unregister (rank key s.keyOf? a)) := by
  have hview : t.registered? key = some (rank key s.keyOf? a) := by
    rw [h.registered?, hreg, Option.map_some]
  refine h.frame (funext (State.keyOf?_unregister a)) (funext (State.keyOf?_unregister _))
    ⟨by simp, by simp⟩ ⟨by simp, by simp⟩ ?_ fun {b} hb => ?_
  · rw [State.registered?_unregister (h.keyOf? ha), if_pos ⟨rfl, hview⟩,
      State.registered?_unregister ha, if_pos ⟨rfl, hreg⟩, Option.map_none]
  · rw [State.outcome?_unregister, State.outcome?_unregister, h.outcome? hb]

/-- The entry of another key is removed, and nothing is seen. -/
theorem IsView.unregister_other (h : IsView key keys s t) {other : K} (hne : other ≠ key)
    (ha : s.keyOf? a = some other) : IsView key keys (s.unregister a) t := by
  refine h.frame (funext (State.keyOf?_unregister a)) rfl ⟨by simp, rfl⟩ ⟨by simp, rfl⟩ ?_
    fun {b} hb => ?_
  · rw [State.registered?_unregister ha, if_neg fun hc => hne hc.1.symm, h.registered?]
  · rw [State.outcome?_unregister, h.outcome? hb]

/-- The outcome of an attempt for the key is published, and is seen. -/
theorem IsView.publishOutcome (h : IsView key keys s t) (ha : s.keyOf? a = some key)
    (o : Except E V) :
    IsView key keys (s.publishOutcome a o) (t.publishOutcome (rank key s.keyOf? a) o) := by
  refine h.frame (funext (State.keyOf?_publishOutcome a · o))
    (funext (State.keyOf?_publishOutcome _ · o)) ⟨by simp, by simp⟩ ⟨rfl, rfl⟩ h.registered?
    fun {b} hb => ?_
  -- two attempts for the key are the same if their numbers in the view are
  rw [State.outcome?_publishOutcome o (h.keyOf? ha), State.outcome?_publishOutcome o ha,
    h.outcome? hb]
  exact if_congr (rank_inj hb ha) rfl rfl

/-- The outcome of an attempt for another key is published, and nothing is seen. -/
theorem IsView.publishOutcome_other (h : IsView key keys s t) {other : K} (hne : other ≠ key)
    (ha : s.keyOf? a = some other) (o : Except E V) :
    IsView key keys (s.publishOutcome a o) t := by
  refine h.frame (funext (State.keyOf?_publishOutcome a · o)) rfl ⟨by simp, rfl⟩ ⟨rfl, rfl⟩
    h.registered? fun {b} hb => ?_
  have hba : b ≠ a := by
    rintro rfl
    exact hne (Option.some.inj (ha.symm.trans hb))
  rw [State.outcome?_publishOutcome o ha, if_neg hba, h.outcome? hb]

end View

end Depot.OnceCache
