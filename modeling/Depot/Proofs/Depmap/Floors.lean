import Depot.Proofs.Decimal.Value
import Depot.Proofs.Depmap.Publishing
import Mathlib.Data.List.Induction
/-!
# The floor is the earliest of the greatest

Version floors are added one after the other, as texts, for either kind. A text that is no numeral
of a number is refused and changes nothing; a number counts for its own kind. What a sequence of
calls leaves is told from the calls alone (`Depmap.IsFloorAfter`). The floor of a kind is the number
of the first call of that kind whose number no other call exceeds, and it is missing if no call has
one. A floor that the map had counts as if it came before all calls. Numbers are compared as the
rational numbers that they spell (`Decimal.value`), so of several spellings the first one stays.

The proof is by induction from the first call on, for any floor that may be there: what the other
calls make of the floor that the first one leaves, all of them make of the one that was there before
(`IsFloorAfter.cons_of_isNumeral`, `IsFloorAfter.cons_of_passed`).
-/

namespace Depot

/-- Either a number is the new maximum, and the one before is less, or that stays, and is not less
than the number. -/
theorem Decimal.maxOption_cases (current : Option Decimal) (d : Decimal) :
    maxOption current d = some d ∧ (∀ c ∈ current, c.value < d.value) ∨
      ∃ c, current = some c ∧ maxOption current d = some c ∧ d.value ≤ c.value := by
  cases current with
  | none => exact .inl ⟨rfl, fun _ hc => (nomatch hc)⟩
  | some c =>
    by_cases hlt : lt c d = true
    · refine .inl ⟨congrArg some (if_pos hlt), fun x hx => ?_⟩
      obtain rfl := Option.some.inj hx
      exact lt_iff_value_lt.1 hlt
    · refine .inr ⟨c, rfl, congrArg some (if_neg hlt), ?_⟩
      exact not_lt.1 fun h => hlt (lt_iff_value_lt.2 h)

/-- A text is a numeral for one number only. -/
theorem Decimal.IsNumeral.unique {s : String} {a b : Decimal} (ha : IsNumeral s a)
    (hb : IsNumeral s b) : a = b := by
  rw [← VersionFloor.parse_eq_ok_iff] at ha hb
  exact Except.ok.inj (ha.symm.trans hb)

namespace Depmap

variable {b : Bool} {calls : List (Bool × String)} {d e : Decimal}

/-! ### What calls leave -/

/-- Some call of the kind has a numeral for the number. -/
def Brings (b : Bool) (calls : List (Bool × String)) (d : Decimal) : Prop :=
  ∃ version, (b, version) ∈ calls ∧ Decimal.IsNumeral version d

/-- The number comes from a call of the kind; all numbers before it are less, and none after it is
greater. -/
def IsEarliestGreatest (b : Bool) (calls : List (Bool × String)) (d : Decimal) : Prop :=
  ∃ before version after, calls = before ++ (b, version) :: after ∧
    Decimal.IsNumeral version d ∧ (∀ x, Brings b before x → x.value < d.value) ∧
    ∀ x, Brings b after x → x.value ≤ d.value

/-- The floor of a kind that calls leave, where there was a floor before them or none. -/
def IsFloorAfter (b : Bool) (before : Option Decimal) (calls : List (Bool × String)) :
    Option Decimal → Prop
  | none => before = none ∧ ∀ d, ¬ Brings b calls d
  | some d =>
    before = some d ∧ (∀ x, Brings b calls x → x.value ≤ d.value) ∨
    IsEarliestGreatest b calls d ∧ ∀ c ∈ before, c.value < d.value

theorem brings_cons {call : Bool × String} :
    Brings b (call :: calls) d ↔ call.1 = b ∧ Decimal.IsNumeral call.2 d ∨ Brings b calls d := by
  constructor
  · rintro ⟨version, hmem, hd⟩
    rcases List.mem_cons.1 hmem with rfl | hmem
    · exact .inl ⟨rfl, hd⟩
    · exact .inr ⟨version, hmem, hd⟩
  · rintro (⟨rfl, hd⟩ | ⟨version, hmem, hd⟩)
    · exact ⟨call.2, List.mem_cons_self, hd⟩
    · exact ⟨version, List.mem_cons_of_mem _ hmem, hd⟩

/-- One more call in front, whose number is less, if it has one for the kind. -/
theorem IsEarliestGreatest.cons (h : IsEarliestGreatest b calls d) {call : Bool × String}
    (hless : ∀ x, call.1 = b → Decimal.IsNumeral call.2 x → x.value < d.value) :
    IsEarliestGreatest b (call :: calls) d := by
  obtain ⟨before, version, after, rfl, hd, hbefore, hafter⟩ := h
  refine ⟨call :: before, version, after, rfl, hd, ?_, hafter⟩
  intro x hx
  rcases brings_cons.1 hx with ⟨hkind, hx⟩ | hx
  · exact hless x hkind hx
  · exact hbefore x hx

namespace IsFloorAfter

variable {before floor : Option Decimal}

/-- **A call that does not count**, because it is refused or of the other kind. -/
theorem cons_of_passed {call : Bool × String}
    (hpassed : ∀ x, call.1 = b → ¬ Decimal.IsNumeral call.2 x)
    (h : IsFloorAfter b before calls floor) : IsFloorAfter b before (call :: calls) floor := by
  -- what the later calls bring is what all calls bring
  have hbrings : ∀ x, Brings b (call :: calls) x → Brings b calls x := by
    intro x hx
    rcases brings_cons.1 hx with ⟨hkind, hx⟩ | hx
    · exact absurd hx (hpassed x hkind)
    · exact hx
  cases floor with
  | none => exact ⟨h.1, fun x hx => h.2 x (hbrings x hx)⟩
  | some d =>
    refine h.imp (fun h => ⟨h.1, fun x hx => h.2 x (hbrings x hx)⟩) fun h => ⟨h.1.cons ?_, h.2⟩
    exact fun x hkind hx => absurd hx (hpassed x hkind)

/-- **A call with a number** for the kind. -/
theorem cons_of_isNumeral {version : String} (hd : Decimal.IsNumeral version d)
    (h : IsFloorAfter b (Decimal.maxOption before d) calls floor) :
    IsFloorAfter b before ((b, version) :: calls) floor := by
  rcases Decimal.maxOption_cases before d with ⟨hmax, hless⟩ | ⟨c, rfl, hmax, hle⟩
  · -- the number is the new floor, which stays or is exceeded later on
    rw [hmax] at h
    cases floor with
    | none => cases h.1
    | some e =>
      rcases h with ⟨he, hrest⟩ | ⟨hrest, hde⟩
      · obtain rfl := Option.some.inj he
        refine .inr ⟨⟨[], version, calls, rfl, hd, ?_, hrest⟩, hless⟩
        rintro x ⟨_, hmem, -⟩
        cases hmem
      · have hde := hde d rfl
        refine .inr ⟨hrest.cons fun x _ hx => hx.unique hd ▸ hde, fun c hc => ?_⟩
        exact (hless c hc).trans hde
  · -- the floor that was there stays at first
    rw [hmax] at h
    cases floor with
    | none => cases h.1
    | some e =>
      rcases h with ⟨he, hrest⟩ | ⟨hrest, hce⟩
      · obtain rfl := Option.some.inj he
        refine .inl ⟨rfl, fun x hx => ?_⟩
        rcases brings_cons.1 hx with ⟨-, hx⟩ | hx
        · exact hx.unique hd ▸ hle
        · exact hrest x hx
      · refine .inr ⟨hrest.cons fun x _ hx => ?_, hce⟩
        exact hx.unique hd ▸ hle.trans_lt (hce c rfl)

end IsFloorAfter

/-! ### Calls on maps -/

/-- The floor of a kind. -/
def floor (m : Depmap) (b : Bool) : Option Decimal := if b then m.buildFloor else m.runtimeFloor

/-- The map after calls, of which some may fail. -/
def addFloors (m : Depmap) (calls : List (Bool × String)) : Depmap :=
  calls.foldl (fun m call => History.settle m (m.addFloor call.1 call.2)) m

theorem floor_raiseFloor (m : Depmap) (b kind : Bool) (d : Decimal) :
    (m.raiseFloor kind d).floor b =
      if kind = b then Decimal.maxOption (m.floor b) d else m.floor b := by
  cases b <;> cases kind <;> rfl

/-- A call is refused, or its number raises the floor of its kind. -/
theorem settle_addFloor_cases {m : Depmap} (hopen : m.frozen = false) (call : Bool × String) :
    (∀ d, ¬ Decimal.IsNumeral call.2 d) ∧ History.settle m (m.addFloor call.1 call.2) = m ∨
    ∃ d, Decimal.IsNumeral call.2 d ∧
      History.settle m (m.addFloor call.1 call.2) = m.raiseFloor call.1 d := by
  cases hparse : VersionFloor.parse call.2 with
  | error refusal =>
    refine .inl ⟨fun d hd => ?_, ?_⟩
    · rw [VersionFloor.parse_eq_ok_iff.2 hd] at hparse
      cases hparse
    · rw [addFloor_of_error hopen call.1 hparse]
      rfl
  | ok d =>
    refine .inr ⟨d, VersionFloor.parse_eq_ok_iff.1 hparse, ?_⟩
    rw [addFloor_of_ok hopen call.1 hparse]
    rfl

/-- **The floors that calls leave**, on any map that is not published; the rest of it stays. -/
theorem addFloors_spec {m : Depmap} (hopen : m.frozen = false) (calls : List (Bool × String)) :
    (∀ b, IsFloorAfter b (m.floor b) calls ((m.addFloors calls).floor b)) ∧
    m.addFloors calls = { m with
      runtimeFloor := (m.addFloors calls).runtimeFloor
      buildFloor := (m.addFloors calls).buildFloor } := by
  -- a call changes one floor or none, so the calls are followed one by one
  induction calls generalizing m with
  | nil =>
    refine ⟨fun b => ?_, rfl⟩
    show IsFloorAfter b (m.floor b) [] (m.floor b)
    -- without calls a floor stays what it was
    cases m.floor b with
    | none => exact ⟨rfl, fun d ⟨_, hmem, _⟩ => nomatch hmem⟩
    | some d => exact .inl ⟨rfl, fun x ⟨_, hmem, _⟩ => nomatch hmem⟩
  | cons call calls ih =>
    have hstep : m.addFloors (call :: calls) =
        (History.settle m (m.addFloor call.1 call.2)).addFloors calls := rfl
    rw [hstep]
    rcases settle_addFloor_cases hopen call with ⟨hnone, hsame⟩ | ⟨d, hd, hraised⟩
    · -- the version is no numeral: the call passes without a trace
      obtain ⟨hfloors, hrest⟩ := ih hopen
      rw [hsame]
      exact ⟨fun b => (hfloors b).cons_of_passed fun x _ => hnone x, hrest⟩
    · -- the call raises the floor of its kind, and for the other kind it passes
      obtain ⟨kind, version⟩ := call
      have hopen' : (m.raiseFloor kind d).frozen = false := by
        cases kind <;> exact hopen
      obtain ⟨hfloors, hrest⟩ := ih hopen'
      rw [hraised]
      refine ⟨fun b => ?_, ?_⟩
      · have hfloor := hfloors b
        rw [floor_raiseFloor] at hfloor
        split at hfloor
        · next hkind =>
          subst hkind
          exact hfloor.cons_of_isNumeral hd
        · next hkind => exact hfloor.cons_of_passed fun x hsame => absurd hsame hkind
      · rw [hrest]
        cases kind <;> rfl

/-! ### Calls in memory -/

namespace Heap

variable {h : Heap} {i j : Nat}

/-- The memory after calls on a map, of which some may fail. -/
def addFloors (h : Heap) (i : Nat) (calls : List (Bool × String)) : Heap :=
  calls.foldl (fun h call => (Operation.edit i (.addFloor call.1 call.2)).after h) h

theorem addFloors_concat (h : Heap) (i : Nat) (calls : List (Bool × String))
    (call : Bool × String) : h.addFloors i (calls ++ [call]) =
      (Operation.edit i (.addFloor call.1 call.2)).after (h.addFloors i calls) := by
  rw [addFloors, List.foldl_concat]
  rfl

theorem leads_addFloors (hs : h.Sound) (hi : i < h.objects.length)
    (calls : List (Bool × String)) : Leads h (h.addFloors i calls) := by
  induction calls using List.reverseRecOn with
  | nil => exact .refl h
  | append_singleton calls call ih =>
    rw [addFloors_concat]
    exact ih.step _ ⟨Nat.lt_of_lt_of_le hi (ih.length_le hs), trivial⟩

/-- The map after calls is the one after calls on it. -/
theorem map_addFloors (hs : h.Sound) (hi : i < h.objects.length)
    (calls : List (Bool × String)) : (h.addFloors i calls).map i = (h.map i).addFloors calls := by
  induction calls using List.reverseRecOn with
  | nil => rfl
  | append_singleton calls call ih =>
    have hleads := leads_addFloors hs hi calls
    have hi' := Nat.lt_of_lt_of_le hi (hleads.length_le hs)
    have hstep := Operation.map_edit (hleads.sound hs) hi' (e := .addFloor call.1 call.2) trivial
    rw [addFloors_concat, hstep, ih, Depmap.addFloors, Depmap.addFloors, List.foldl_concat]
    rfl

end Heap

/-- **The floor is the earliest of the greatest.** Calls that add version floors, with any texts and
of both kinds, are made on a map that is not published, in any memory that comes about. After any of
them, a call is refused exactly if its text is no numeral of a number, and then leaves the memory as
it was. After all of them, a floor that the map did not have before is still missing if no call of
its kind brings a number, and is otherwise the number of the first call whose number is greatest by
value, spelled as it is there. A floor that the map had counts as coming first. Nothing else of the
map is changed. -/
theorem floor_earliest_greatest {h : Heap} (hh : h.Reachable) {i : Nat}
    (hi : i < h.objects.length) (hopen : (h.map i).frozen = false)
    (calls : List (Bool × String)) :
    (∀ b version,
      (∀ d, ¬ Decimal.IsNumeral version d) ∧
        (∃ refusal, (Heap.addFloor i b version).outcome (h.addFloors i calls) =
          (.error (.edit (.floor refusal)), h.addFloors i calls)) ∨
      (∃ d, Decimal.IsNumeral version d) ∧
        (Heap.addFloor i b version).outcome (h.addFloors i calls) =
          (.ok (), h.addFloors i (calls ++ [(b, version)]))) ∧
    (∀ b, (h.map i).floor b = none →
      ((h.addFloors i calls).map i).floor b = none ∧ (∀ d, ¬ Brings b calls d) ∨
      ∃ d, ((h.addFloors i calls).map i).floor b = some d ∧ IsEarliestGreatest b calls d) ∧
    (∀ b, IsFloorAfter b ((h.map i).floor b) calls (((h.addFloors i calls).map i).floor b)) ∧
    (h.addFloors i calls).map i = { h.map i with
      runtimeFloor := ((h.addFloors i calls).map i).runtimeFloor
      buildFloor := ((h.addFloors i calls).map i).buildFloor } := by
  have hs := hh.sound
  have hleads := Heap.leads_addFloors hs hi calls
  have hs' := hleads.sound hs
  have hi' := Nat.lt_of_lt_of_le hi (hleads.length_le hs)
  obtain ⟨hfloors, hrest⟩ := addFloors_spec hopen calls
  rw [← Heap.map_addFloors hs hi] at hfloors hrest
  refine ⟨fun b version => ?_, fun b hnone => ?_, hfloors, hrest⟩
  · -- one more call, on the map as the calls before left it
    have hopen' : ((h.addFloors i calls).map i).frozen = false := by
      rw [hrest]
      exact hopen
    obtain ⟨hok, herror⟩ := (Edit.addFloor b version).outcome_perform hs' hi' trivial
    cases hparse : VersionFloor.parse version with
    | error refusal =>
      refine .inl ⟨fun d hd => ?_, refusal, herror _ (addFloor_of_error hopen' b hparse)⟩
      rw [VersionFloor.parse_eq_ok_iff.2 hd] at hparse
      cases hparse
    | ok d =>
      obtain ⟨h', hwork, -⟩ := hok _ (addFloor_of_ok hopen' b hparse)
      refine .inr ⟨⟨d, VersionFloor.parse_eq_ok_iff.1 hparse⟩, hwork.trans ?_⟩
      rw [Heap.addFloors_concat]
      exact congrArg (Prod.mk _) (congrArg Prod.snd hwork).symm
  · have hfloor := hfloors b
    rw [hnone] at hfloor
    -- without a floor before, there is only the one that a call brings
    cases hafter : ((h.addFloors i calls).map i).floor b with
    | none =>
      rw [hafter] at hfloor
      exact .inl ⟨rfl, hfloor.2⟩
    | some d =>
      rw [hafter] at hfloor
      rcases hfloor with ⟨hd, -⟩ | ⟨hd, -⟩
      · cases hd
      · exact .inr ⟨d, rfl, hd⟩

/-- Calls of both kinds, with several spellings of zero and of 1.8, and texts that are refused. -/
def sampleCalls : List (Bool × String) :=
  [(false, "-0"), (true, "1.8"), (false, "eight"), (false, "0.0"), (true, "1.80"), (true, "NaN"),
    (true, "1e-3")]

theorem floor_earliest_greatest_sampleCalls : ∃ h : Heap, h.Reachable ∧ 0 < h.objects.length ∧
    ((h.addFloors 0 sampleCalls).map 0).runtimeFloor = some ⟨true, 0, 0⟩ ∧
    IsEarliestGreatest false sampleCalls ⟨true, 0, 0⟩ ∧
    ((h.addFloors 0 sampleCalls).map 0).buildFloor = some ⟨false, 18, -1⟩ ∧
    IsEarliestGreatest true sampleCalls ⟨false, 18, -1⟩ := by
  have hreachable : (Operation.create.after {}).Reachable := .step (.refl {}) .create trivial
  obtain ⟨-, hfloors, -⟩ := floor_earliest_greatest hreachable (i := 0) (by decide) rfl sampleCalls
  -- the two floors are evaluated; what they are among the calls comes from the theorem
  have hruntime : (((Operation.create.after {}).addFloors 0 sampleCalls).map 0).floor false =
      some ⟨true, 0, 0⟩ := by decide +kernel
  have hbuild : (((Operation.create.after {}).addFloors 0 sampleCalls).map 0).floor true =
      some ⟨false, 18, -1⟩ := by decide +kernel
  -- of the two cases there, a floor that is present leaves the second
  have hearliest : ∀ b d, (((Operation.create.after {}).addFloors 0 sampleCalls).map 0).floor b =
      some d → IsEarliestGreatest b sampleCalls d := by
    intro b d hd
    rcases hfloors b (by cases b <;> rfl) with ⟨hnone, -⟩ | ⟨e, he, hgreatest⟩
    · rw [hnone] at hd
      cases hd
    · rw [he] at hd
      obtain rfl := Option.some.inj hd
      exact hgreatest
  exact ⟨_, hreachable, by decide, hruntime, hearliest false _ hruntime, hbuild,
    hearliest true _ hbuild⟩

end Depmap

end Depot
