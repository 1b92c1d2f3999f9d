import Depot.Proofs.Logging.StandardOutput
/-!
# The last call wins

Logging may be configured any number of times. The first call may have to make the handler for
standard error, while later ones find it by its name and only set its format. Still a state keeps no
trace of the calls before the last one (`last_call_wins`).

For the levels this is plain, as every call sets all of them. For the handlers it is an equation
between the two ways (`ensureHandler_ensureHandler`): the handler that the first call puts at the
end, after it has removed others, is the one that the next call finds there. What is found is the
first handler of the name, and it has the format of the call (`find?_ensureHandler`); a handler is
only made where there is none of the name (`countP_ensureHandler`).
-/

namespace Depot.Logging

/-- A call that configures logging: the name of the level, and is JSON to be written? -/
structure Call where
  level : String
  json : Bool
  deriving DecidableEq, Repr

/-- The state after a call. -/
def State.configured (s : State) (call : Call) : State := configure s call.level call.json

/-- The state after calls. -/
def State.configuredAll (s : State) (calls : List Call) : State := calls.foldl State.configured s

section Lists

variable {hs ks : List Handler} {json json' : Bool}

theorem setFormat_cons_of_isOurs {h : Handler} (hours : h.isOurs = true) :
    setFormat json (h :: hs) = { h with json } :: hs := by
  rw [setFormat, if_pos hours]

theorem setFormat_cons_of_not {h : Handler} (hours : h.isOurs = false) :
    setFormat json (h :: hs) = h :: setFormat json hs := by
  rw [setFormat, hours, if_neg Bool.false_ne_true]

/-- Of two formats the second one stays, since a format does not change which handler is found. -/
theorem setFormat_setFormat : setFormat json' (setFormat json hs) = setFormat json' hs := by
  induction hs with
  | nil => rfl
  | cons h hs ih =>
    cases hours : h.isOurs with
    | true =>
      have hsame : Handler.isOurs { h with json } = true := hours
      rw [setFormat_cons_of_isOurs hours, setFormat_cons_of_isOurs hsame,
        setFormat_cons_of_isOurs hours]
    | false =>
      rw [setFormat_cons_of_not hours, setFormat_cons_of_not hours, ih, setFormat_cons_of_not hours]

/-- Where the name is not taken, the search goes on behind. -/
theorem setFormat_append (h : ¬ NameTaken hs) :
    setFormat json (hs ++ ks) = hs ++ setFormat json ks := by
  induction hs with
  | nil => rfl
  | cons k hs ih =>
    rw [nameTaken_cons, not_or, Bool.not_eq_true] at h
    rw [List.cons_append, setFormat_cons_of_not h.1, ih h.2, List.cons_append]

/-! ### The two ways -/

/-- Where the name is taken, a handler gets the format. -/
theorem ensureHandler_of_nameTaken (h : NameTaken hs) :
    ensureHandler json hs = setFormat json hs := by
  rw [ensureHandler, if_pos (any_isOurs_iff.2 h)]

/-- Where the name is free, a handler is added to those that do not write to standard output. -/
theorem ensureHandler_of_not_nameTaken (h : ¬ NameTaken hs) :
    ensureHandler json hs = (hs.filter fun h => h.sink != .standardOutput) ++
      [⟨some standardErrorName, .standardError, json⟩] := by
  rw [ensureHandler, if_neg (mt any_isOurs_iff.1 h)]

/-- To remove handlers takes no name. -/
theorem not_nameTaken_filter (p : Handler → Bool) (h : ¬ NameTaken hs) :
    ¬ NameTaken (hs.filter p) := fun ⟨k, hk, hours⟩ => h ⟨k, (List.mem_filter.1 hk).1, hours⟩

/-- **Twice is once.** Whichever way the first call takes, the second one leaves what it would have
left by itself. -/
theorem ensureHandler_ensureHandler :
    ensureHandler json' (ensureHandler json hs) = ensureHandler json' hs := by
  have htaken : NameTaken (ensureHandler json hs) := nameTaken_ensureHandler
  rw [ensureHandler_of_nameTaken htaken]
  by_cases h : NameTaken hs
  · rw [ensureHandler_of_nameTaken h, ensureHandler_of_nameTaken h, setFormat_setFormat]
  · -- the second call finds the handler that the first one has put at the end
    rw [ensureHandler_of_not_nameTaken h, ensureHandler_of_not_nameTaken h,
      setFormat_append (not_nameTaken_filter _ h), setFormat_cons_of_isOurs rfl]

/-! ### The handler of the name -/

/-- The first handler of the name has the format. -/
theorem find?_ensureHandler :
    ((ensureHandler json hs).find? Handler.isOurs).map (·.json) = some json := by
  have hset : ∀ {hs}, NameTaken hs →
      ((setFormat json hs).find? Handler.isOurs).map (·.json) = some json := by
    intro hs htaken
    induction hs with
    | nil => exact absurd htaken fun ⟨_, hk, _⟩ => nomatch hk
    | cons h hs ih =>
      cases hours : h.isOurs with
      | true =>
        have hsame : Handler.isOurs { h with json } = true := hours
        rw [setFormat_cons_of_isOurs hours, List.find?_cons_of_pos hsame]
        rfl
      | false =>
        rw [nameTaken_cons, hours, or_iff_right Bool.false_ne_true] at htaken
        rw [setFormat_cons_of_not hours, List.find?_cons_of_neg (by simp [hours]), ih htaken]
  -- a call after a call finds a handler, and that call leaves what is left here
  have hagain : ensureHandler json hs = ensureHandler json (ensureHandler json hs) :=
    ensureHandler_ensureHandler.symm
  rw [hagain, ensureHandler_of_nameTaken nameTaken_ensureHandler]
  exact hset nameTaken_ensureHandler

/-- No handler of the name is added beside another one. -/
theorem countP_ensureHandler :
    (ensureHandler json hs).countP Handler.isOurs = max 1 (hs.countP Handler.isOurs) := by
  -- setting the format takes no name away and gives none
  have hset : ∀ hs, (setFormat json hs).countP Handler.isOurs = hs.countP Handler.isOurs := by
    intro hs
    induction hs with
    | nil => rfl
    | cons h hs ih =>
      cases hours : h.isOurs with
      | true =>
        have hsame : Handler.isOurs { h with json } = true := hours
        rw [setFormat_cons_of_isOurs hours, List.countP_cons_of_pos hsame,
          List.countP_cons_of_pos hours]
      | false =>
        have hneg : ¬ h.isOurs = true := by simp [hours]
        rw [setFormat_cons_of_not hours, List.countP_cons_of_neg hneg,
          List.countP_cons_of_neg hneg, ih]
  have hfree : ∀ {hs}, ¬ NameTaken hs → hs.countP Handler.isOurs = 0 := fun h =>
    List.countP_eq_zero.2 fun k hk hours => h ⟨k, hk, hours⟩
  by_cases h : NameTaken hs
  · rw [ensureHandler_of_nameTaken h, hset, Nat.max_eq_right (List.countP_pos_iff.2 h)]
  · rw [ensureHandler_of_not_nameTaken h, List.countP_append,
      hfree (not_nameTaken_filter _ h), hfree h]
    rfl

end Lists

/-! ### Calls -/

/-- Of two calls the second one wins. -/
theorem configured_configured (s : State) (call call' : Call) :
    (s.configured call).configured call' = s.configured call' := by
  unfold State.configured configure
  rw [ensureHandler_ensureHandler]

/-- **The last call wins.** After any calls the state is the one after the last of them alone: the
levels, the handlers and their formats. The first handler of the name has the format of that call,
and there are as many of the name as at the start, but at least one. -/
theorem last_call_wins (s : State) (calls : List Call) (last : Call) :
    s.configuredAll (calls ++ [last]) = s.configured last ∧
    ((s.configuredAll (calls ++ [last])).handlers.find? Handler.isOurs).map (·.json) =
      some last.json ∧
    (s.configuredAll (calls ++ [last])).handlers.countP Handler.isOurs =
      max 1 (s.handlers.countP Handler.isOurs) := by
  have hlast : s.configuredAll (calls ++ [last]) = s.configured last := by
    induction calls generalizing s with
    | nil => rfl
    | cons call calls ih =>
      -- the first call is followed by the others, of which the last one overrides it
      calc s.configuredAll (call :: calls ++ [last])
          = (s.configured call).configuredAll (calls ++ [last]) := rfl
        _ = (s.configured call).configured last := ih (s.configured call)
        _ = s.configured last := configured_configured s call last
  rw [hlast]
  exact ⟨rfl, find?_ensureHandler, countP_ensureHandler⟩

example : (State.configuredAll ⟨30, 30, 30, [⟨none, .standardOutput, false⟩]⟩
    [⟨"debug", true⟩, ⟨"no level", false⟩]).handlers =
      [⟨some standardErrorName, .standardError, false⟩] := by decide

end Depot.Logging
