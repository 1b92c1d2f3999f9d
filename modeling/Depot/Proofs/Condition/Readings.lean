import Depot.Proofs.Condition.Algebra
import Depot.Repository.Resolve
/-!
# What conditions read

A condition reads a context in a few places: a field of the coordinate where one of its terms is the
accessor of that field, the value of a property that a term names, and whether a property is set
where it asks for that (`Condition.readings`). Contexts that agree on these places give the
condition the same value, however they differ elsewhere (`Condition.holds_eq_of_agreeOn`): the proof
is an induction on conditions, with all connectives in one case (`Condition.induction_on`).

A node of a repository tree answers a request only if its filter holds of the requested coordinate,
so requests between which the filter sees no difference are both let through, or neither is answered
(`Frame.admits_eq_of_agreeOn`).
-/

namespace Depot

/-- A field of a coordinate. -/
inductive Coordinate.Field where
  | group
  | artifact
  | extension
  | classifier
  | version
  deriving DecidableEq, Repr

/-- What a coordinate has in a field, if anything. -/
def Coordinate.get? (c : Coordinate) : Field → Option String
  | .group => some c.group.text
  | .artifact => some c.artifact.text
  | .extension => some c.extension.text
  | .classifier => some c.classifier.text
  | .version => c.version

/-- A place in which a context is read. -/
inductive Reading where
  | field (f : Coordinate.Field)
  /-- The value of a property, if it has one. -/
  | value (name : String)
  /-- Is the property set? -/
  | presence (name : String)
  deriving DecidableEq, Repr

/-- The contexts agree on what is read. -/
def Reading.Agrees (x y : Context) : Reading → Prop
  | field f => x.coordinate.get? f = y.coordinate.get? f
  | value name => x.properties.get? name = y.properties.get? name
  | presence name => x.properties.has name = y.properties.has name

instance (x y : Context) : (r : Reading) → Decidable (r.Agrees x y)
  | .field _ => inferInstanceAs (Decidable (_ = _))
  | .value _ => inferInstanceAs (Decidable (_ = _))
  | .presence _ => inferInstanceAs (Decidable (_ = _))

namespace Term

/-- What a term reads. -/
def readings : Term → List Reading
  | .group => [.field .group]
  | .artifact => [.field .artifact]
  | .extension => [.field .extension]
  | .classifier => [.field .classifier]
  | .version => [.field .version]
  | .literal _ => []
  | .property name => [.value name]
  | .null => []

/-- A term denotes the same where the contexts agree on what it reads. -/
theorem value_eq {t : Term} {x y : Context} (h : ∀ r ∈ t.readings, r.Agrees x y) :
    t.value x = t.value y := by
  cases t with
  | literal | null => rfl
  | group | artifact | extension | classifier | version | property =>
    exact h _ List.mem_cons_self

end Term

namespace Condition

mutual

/-- What a condition reads. -/
def readings : Condition → List Reading
  | .literal _ => []
  | .not operand => readings operand
  | .and operands => readingsOfAll operands
  | .or operands => readingsOfAll operands
  | .xor operands => readingsOfAll operands
  | .equals left right => left.readings ++ right.readings
  | .defined name => [.presence name]

/-- What the conditions of a list read. -/
def readingsOfAll : List Condition → List Reading
  | [] => []
  | c :: cs => readings c ++ readingsOfAll cs

end

/-- The contexts agree on all that the condition reads. -/
def AgreeOn (c : Condition) (x y : Context) : Prop := ∀ r ∈ c.readings, r.Agrees x y

instance (c : Condition) (x y : Context) : Decidable (c.AgreeOn x y) :=
  inferInstanceAs (Decidable (∀ r ∈ c.readings, r.Agrees x y))

theorem readings_make (k : Connective) (cs : List Condition) :
    (k.make cs).readings = readingsOfAll cs := by
  cases k
  · rw [Connective.make, readings]
  · rw [Connective.make, readings]
  · rw [Connective.make, readings]

theorem mem_readingsOfAll {cs : List Condition} {r : Reading} :
    r ∈ readingsOfAll cs ↔ ∃ c ∈ cs, r ∈ c.readings := by
  induction cs with
  | nil => simp [readingsOfAll]
  | cons c cs ih => simp [readingsOfAll, ih]

/-- **Induction on conditions**, with all connectives in one case. -/
@[elab_as_elim]
theorem induction_on {P : Condition → Prop} (c : Condition) (literal : ∀ b, P (.literal b))
    (not : ∀ c, P c → P (.not c))
    (connective : ∀ (k : Connective) (cs : List Condition), (∀ c ∈ cs, P c) → P (k.make cs))
    (equals : ∀ left right, P (.equals left right)) (defined : ∀ name, P (.defined name)) : P c :=
  Condition.rec (motive_1 := P) (motive_2 := fun cs => ∀ c ∈ cs, P c) literal not
    (connective .and) (connective .or) (connective .xor) equals defined
    (fun _ h => nomatch h) (fun _ _ hc hcs => List.forall_mem_cons.2 ⟨hc, hcs⟩) c

variable {x y : Context}

/-- **A condition sees only what it reads.** -/
theorem holds_eq_of_agreeOn (c : Condition) (h : c.AgreeOn x y) : c.holds x = c.holds y := by
  induction c using induction_on with
  | literal b => rw [holds, holds]
  | not c ih =>
    rw [holds_not, holds_not, ih fun r hr => h r (by rwa [readings])]
  | connective k cs ih =>
    -- an operand reads no more than the connective
    have hoperand : ∀ c ∈ cs, c.AgreeOn x y := fun c hc r hr => h r <| by
      rw [readings_make, mem_readingsOfAll]
      exact ⟨c, hc, hr⟩
    rw [holds_make, holds_make, List.map_congr_left fun c hc => ih c hc (hoperand c hc)]
  | equals left right =>
    rw [AgreeOn, readings, List.forall_mem_append] at h
    rw [holds, holds, Term.value_eq h.1, Term.value_eq h.2]
  | defined name =>
    rw [AgreeOn, readings, List.forall_mem_singleton] at h
    rw [holds, holds]
    exact h

end Condition

/-! ### Filters -/

/-- A filter lets requests through alike between which it sees no difference. -/
theorem Frame.admits_eq_of_agreeOn {f g : Frame} (hfilter : f.filter = g.filter) {c d : Coordinate}
    (h : f.filter.AgreeOn ⟨c, f.properties⟩ ⟨d, g.properties⟩) : f.admits c = g.admits d := by
  rw [admits, admits, ← hfilter]
  exact f.filter.holds_eq_of_agreeOn h

namespace Repository

variable {m : Type → Type} [Monad m]

/-- A node has no answer to a request that its filter rejects, and asks nothing for it. -/
theorem resolve_of_not_admits (access : Access m) (position : List Nat) (r : Repository)
    {c : Coordinate} (h : r.frame.admits c = false) : r.resolve access position c = pure none := by
  cases r <;> (rw [resolve, framed]; exact if_neg (by rw [Bool.not_eq_true]; exact h))

/-- **A filter sees only what it mentions.** A condition has the same value in contexts that agree
on the fields whose accessors occur in it, on the values of the properties that its terms name, and
on whether those are set for which it asks just that. So of two nodes with one filter, asked for
coordinates between which it sees no difference, either both let the request through or neither
does, and then neither has an answer. -/
theorem sees_only_readings :
    (∀ (c : Condition) (x y : Context), c.AgreeOn x y → c.holds x = c.holds y) ∧
    ∀ {m : Type → Type} [Monad m] (access : Access m) (p q : List Nat) (r s : Repository)
      (c d : Coordinate), r.frame.filter = s.frame.filter →
      r.frame.filter.AgreeOn ⟨c, r.frame.properties⟩ ⟨d, s.frame.properties⟩ →
      r.frame.admits c = s.frame.admits d ∧ (r.frame.admits c = false →
        r.resolve access p c = pure none ∧ s.resolve access q d = pure none) := by
  refine ⟨fun c _ _ h => c.holds_eq_of_agreeOn h, fun access p q r s c d hfilter h => ?_⟩
  have hadmits := Frame.admits_eq_of_agreeOn hfilter h
  refine ⟨hadmits, fun hrejects => ⟨resolve_of_not_admits access p r hrejects, ?_⟩⟩
  exact resolve_of_not_admits access q s (hadmits ▸ hrejects)

/-- A filter on a classifier, a property and the presence of another one. -/
def sampleFilter : Condition :=
  .and [.equals .classifier (.literal ""), .equals (.property "os") (.literal "linux"),
    .xor [.defined "skip"]]

/-- A node with the filter and some properties. -/
def sampleNode (properties : Dictionary String) : Repository :=
  .jpp { filter := sampleFilter, properties } .root

/-- The requests differ in their versions, and the nodes in a property that the filter does not
mention and in the value of one for which it asks only whether it is set. -/
theorem sees_only_readings_sampleNode :
    let r := sampleNode [("os", "linux"), ("skip", "yes")]
    let s := sampleNode [("arch", "arm"), ("skip", "no"), ("os", "linux")]
    let c : Coordinate := default
    let d : Coordinate := c.withVersion (some "1")
    r.frame.filter = s.frame.filter ∧
    r.frame.filter.AgreeOn ⟨c, r.frame.properties⟩ ⟨d, s.frame.properties⟩ ∧
    r.frame.admits c = true ∧ s.frame.admits d = true := by
  intro r s c d
  have hagree : r.frame.filter.AgreeOn ⟨c, r.frame.properties⟩ ⟨d, s.frame.properties⟩ := by
    decide +kernel
  have hadmits : r.frame.admits c = true := by decide +kernel
  have hsame := (sees_only_readings.2 (m := Id) ⟨fun _ => false, fun _ _ => [], fun _ => none⟩ [] []
    r s c d rfl hagree).1
  exact ⟨rfl, hagree, hadmits, hsame ▸ hadmits⟩

end Repository

end Depot
