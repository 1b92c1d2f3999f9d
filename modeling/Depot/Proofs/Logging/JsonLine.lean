import Depot.Logging.Line
import Depot.Proofs.Json.ReadBack
import Depot.Proofs.Outcome
/-!
# A JSON log line and its record

A log line in JSON is one line, and a reader of JSON gets the record back from it
(`jsonLine_reads_back`): the message as it was formatted, every attribute that is shown with its
value, and nothing else but the fixed names and the exception. Not every record has a line. An
integer of too many digits in an attribute can be written neither as JSON nor as a text in its
place, and an attribute may stand in the place of what makes messages.

An attribute is kept out of the object if it has the name of a part that every record has. The fixed
names are not among these, but for `message`: so an attribute that is called `timestamp`, `level` or
`logger` takes the place of the record's own (`jsonLine_fixed_members`).

Both follow from what a reader gets for each name (`exists_parse?_jsonLine`). The record needs to be
proper for that (`IsProper`): names are set once, in the record as in the objects in it.
-/

namespace Depot

open Logging (Fault Value)

/-- The names in every object of the value are distinct. -/
def Logging.Value.IsProper : Value → Prop
  | .json v => v.IsProper
  | .path _ => True

namespace LogRecord

/-- Names are distinct: those of the attributes, and those in every object of the record. -/
structure IsProper (r : LogRecord) : Prop where
  level : r.level.IsProper
  logger : r.logger.IsProper
  names : (Dictionary.names r.attributes).Nodup
  attributes : ∀ entry ∈ r.attributes, entry.2.IsProper

variable {r : LogRecord}

/-! ### Writing the line -/

/-- There is a message if the template takes its arguments, and no attribute stands in the place of
what makes messages. -/
theorem message_eq_ok_iff {message : String} : r.message = .ok message ↔
    Message.fill r.template.toText r.arguments = .ok message ∧
      makerName ∉ Dictionary.names r.attributes := by
  rw [LogRecord.message, ← Dictionary.has_iff]
  split
  · next h => exact iff_of_false error_ne_ok fun hmaker => hmaker.2 h
  · next h => rw [and_iff_left h]

/-- A member has its place in the object if it is JSON that can be written. -/
theorem memberJson_eq_ok_iff {entry : String × Value} {member : String × Json} :
    memberJson entry = .ok member ↔
      entry = (member.1, .json member.2) ∧ member.2.isWritable = true := by
  obtain ⟨name, v⟩ := entry
  obtain ⟨other, j⟩ := member
  cases v with
  | path p => simp [memberJson]
  | json v =>
    simp only [memberJson]
    -- a value of JSON is a member as it is, if it can be written at all
    split
    · next h =>
      simp only [Except.ok.injEq, Prod.mk.injEq, Value.json.injEq]
      constructor
      · rintro ⟨rfl, rfl⟩
        exact ⟨⟨rfl, rfl⟩, h⟩
      · rintro ⟨⟨rfl, rfl⟩, -⟩
        exact ⟨rfl, rfl⟩
    · next h =>
      refine iff_of_false (fun heq => nomatch heq) ?_
      rintro ⟨heq, hwritable⟩
      cases heq
      exact h hwritable

/-- What is written on the line. -/
theorem jsonLine_eq_ok_iff {line : String} : r.jsonLine = .ok line ↔
    ∃ s stamp message exception members, r.seconds = .ok s ∧ Instant.fullStamp s = .ok stamp ∧
      r.message = .ok message ∧ r.exception.text? = .ok exception ∧
      (∃ shown, r.shownAttributes.mapM (fun entry => memberJson (entry.1, shownValue entry.2)) =
        .ok shown) ∧
      List.Forall₂ (fun entry member => memberJson entry = .ok member)
        (r.members stamp message exception) members ∧
      (Json.object members).render = line := by
  unfold jsonLine
  simp only [bind_eq_ok_iff, mapM_eq_ok_iff]
  constructor
  · rintro ⟨s, hs, stamp, hstamp, message, hmessage, shown, hshown, exception, hexception, members,
      hmembers, ⟨⟩⟩
    exact ⟨s, stamp, message, exception, members, hs, hstamp, hmessage, hexception,
      ⟨shown, hshown⟩, hmembers, rfl⟩
  · rintro ⟨s, stamp, message, exception, members, hs, hstamp, hmessage, hexception,
      ⟨shown, hshown⟩, hmembers, rfl⟩
    exact ⟨s, hs, stamp, hstamp, message, hmessage, shown, hshown, exception, hexception, members,
      hmembers, rfl⟩

/-! ### The members of the object -/

/-- The name is no part of every record, and is not kept back. -/
structure IsExtra (name : String) : Prop where
  not_mem : name ∉ hiddenNames
  head?_ne : name.toList.head? ≠ some '_'

theorem isShown_iff {name : String} : isShown name = true ↔ IsExtra name := by
  unfold isShown
  rw [Bool.and_eq_true, Bool.not_eq_true', bne_iff_ne, List.contains_eq_mem,
    decide_eq_false_iff_not]
  exact ⟨fun ⟨hname, hhead⟩ => ⟨hname, hhead⟩, fun ⟨hname, hhead⟩ => ⟨hname, hhead⟩⟩

/-- **What stands under a name:** the exception under its own, and under any other an attribute that
is shown, or else a part of the record. -/
theorem get?_members (hnames : (Dictionary.names r.attributes).Nodup) (stamp message : String)
    (exception : Option String) (name : String) :
    Dictionary.get? (r.members stamp message exception) name =
      if name = "exc_info" then exception.map fun text => .json (.str text)
      else ((if isShown name then Dictionary.get? r.attributes name else none).map shownValue).or
        (Dictionary.get? (r.baseMembers stamp message) name) := by
  have hshown : (Dictionary.names r.shownAttributes).Nodup :=
    hnames.sublist (List.filter_sublist.map _)
  have hfold := Dictionary.get?_foldl_put shownValue hshown (r.baseMembers stamp message) name
  rw [shownAttributes, Dictionary.get?_filter] at hfold
  -- no attribute is shown under the name of the exception, and no part of the record
  have hfree : isShown "exc_info" = false := by decide
  have hbase : Dictionary.get? (r.baseMembers stamp message) "exc_info" = none := rfl
  cases exception with
  | none =>
    refine hfold.trans ?_
    by_cases h : name = "exc_info"
    · rw [if_pos h, h, hfree, hbase]
      rfl
    · rw [if_neg h]
  | some text =>
    refine (Dictionary.get?_put _ _ _ _).trans ?_
    by_cases h : name = "exc_info"
    · rw [if_pos h, if_pos h.symm]
      rfl
    · rw [if_neg h, if_neg (Ne.symm h)]
      exact hfold

/-- An attribute that is shown stands under its name. -/
theorem get?_members_of_isExtra (hnames : (Dictionary.names r.attributes).Nodup) {name : String}
    {v : Value} (hmem : (name, v) ∈ r.attributes) (hextra : IsExtra name) (stamp message : String)
    (exception : Option String) :
    Dictionary.get? (r.members stamp message exception) name = some (shownValue v) := by
  have hne : name ≠ "exc_info" := by
    rintro rfl
    exact hextra.not_mem (by decide)
  rw [get?_members hnames, if_neg hne, if_pos (isShown_iff.2 hextra),
    (Dictionary.mem_iff_get? hnames).1 hmem]
  rfl

/-- A part of the record stands under its name if no attribute of the name is shown. -/
theorem get?_members_of_not (hnames : (Dictionary.names r.attributes).Nodup) {name : String}
    (hne : name ≠ "exc_info") (hnot : name ∈ Dictionary.names r.attributes → ¬ IsExtra name)
    (stamp message : String) (exception : Option String) :
    Dictionary.get? (r.members stamp message exception) name =
      Dictionary.get? (r.baseMembers stamp message) name := by
  have hnone : (if isShown name then Dictionary.get? r.attributes name else none) = none := by
    split
    · next hshown =>
      exact Dictionary.get?_eq_none fun hmem => hnot hmem (isShown_iff.1 hshown)
    · rfl
  rw [get?_members hnames, if_neg hne, hnone]
  rfl

/-- No attribute is shown as the message. -/
theorem get?_members_message (hnames : (Dictionary.names r.attributes).Nodup)
    (stamp message : String) (exception : Option String) :
    Dictionary.get? (r.members stamp message exception) "message" = some (.json (.str message)) :=
  get?_members_of_not hnames (by decide) (fun _ hextra => hextra.not_mem (by decide)) ..

/-- The names in the object. -/
theorem mem_names_members_iff {stamp message : String} {exception : Option String}
    {name : String} : name ∈ Dictionary.names (r.members stamp message exception) ↔
      name ∈ ["timestamp", "level", "logger", "message"] ∨
        (name ∈ Dictionary.names r.attributes ∧ isShown name = true) ∨
        (name = "exc_info" ∧ exception.isSome) := by
  have hshown : name ∈ Dictionary.names r.shownAttributes ↔
      name ∈ Dictionary.names r.attributes ∧ isShown name = true := by
    simp only [Dictionary.names, shownAttributes, List.mem_map, List.mem_filter]
    constructor
    · rintro ⟨entry, ⟨hentry, hshown⟩, rfl⟩
      exact ⟨⟨entry, hentry, rfl⟩, hshown⟩
    · rintro ⟨⟨entry, hentry, rfl⟩, hshown⟩
      exact ⟨entry, ⟨hentry, hshown⟩, rfl⟩
  have hbase : Dictionary.names (r.baseMembers stamp message) =
    ["timestamp", "level", "logger", "message"] := rfl
  -- the exception, if there is one, is put in last
  cases exception with
  | none =>
    rw [members, Dictionary.mem_names_foldl_put, hshown, hbase]
    simp [or_comm]
  | some text =>
    rw [members, Dictionary.mem_names_put, Dictionary.mem_names_foldl_put, hshown, hbase]
    simp only [Option.isSome_some, and_true]
    tauto

/-- The names in the object are distinct. -/
theorem nodup_names_members (stamp message : String) (exception : Option String) :
    (Dictionary.names (r.members stamp message exception)).Nodup := by
  have hbase : (Dictionary.names (r.baseMembers stamp message)).Nodup :=
    (by decide : ["timestamp", "level", "logger", "message"].Nodup)
  have hfold := Dictionary.nodup_names_foldl_put shownValue r.shownAttributes hbase
  cases exception with
  | none => exact hfold
  | some text => exact Dictionary.nodup_names_put hfold _ _

/-- What stands in the object is a text, the level or the logger of the record, or an attribute that
is shown. -/
theorem forall_get?_members {P : Value → Prop} (hnames : (Dictionary.names r.attributes).Nodup)
    (htext : ∀ text, P (.json (.str text))) (hlevel : P r.level) (hlogger : P r.logger)
    (hattributes : ∀ name v, (name, v) ∈ r.attributes → isShown name = true → P (shownValue v))
    {stamp message : String} {exception : Option String} {name : String} {v : Value}
    (hv : Dictionary.get? (r.members stamp message exception) name = some v) : P v := by
  rw [get?_members hnames] at hv
  -- a member is the exception, an attribute that is shown, or one of the four fixed ones
  split at hv
  · obtain ⟨text, -, rfl⟩ := Option.map_eq_some_iff.1 hv
    exact htext text
  · rcases Option.or_eq_some_iff.1 hv with hv | ⟨-, hv⟩
    · obtain ⟨w, hw, rfl⟩ := Option.map_eq_some_iff.1 hv
      split at hw
      · next hshown =>
        exact hattributes name w ((Dictionary.mem_iff_get? hnames).2 hw) hshown
      · cases hw
    · simp only [baseMembers, Dictionary.get?_cons] at hv
      split at hv
      · exact Option.some.inj hv ▸ htext stamp
      split at hv
      · exact Option.some.inj hv ▸ hlevel
      split at hv
      · obtain rfl := Option.some.inj hv
        split
        · exact htext "root"
        · exact hlogger
      split at hv
      · exact Option.some.inj hv ▸ htext message
      · cases hv

/-! ### Reading the line -/

/-- Members are written if all are JSON that can be written. -/
theorem forall₂_memberJson_iff {d : Dictionary Value} {written : Dictionary Json} :
    List.Forall₂ (fun entry member => memberJson entry = .ok member) d written ↔
      d = written.map (fun member => (member.1, .json member.2)) ∧
        ∀ member ∈ written, member.2.isWritable = true := by
  simp only [memberJson_eq_ok_iff]
  induction written generalizing d with
  | nil =>
    rw [List.forall₂_nil_right_iff, List.map_nil]
    exact ⟨fun h => ⟨h, fun _ hmember => nomatch hmember⟩, And.left⟩
  | cons member written ih =>
    simp only [List.forall₂_cons_right_iff, ih, List.map_cons,
      List.forall_mem_cons]
    constructor
    · rintro ⟨entry, d, ⟨rfl, hmember⟩, ⟨rfl, hmembers⟩, rfl⟩
      exact ⟨rfl, hmember, hmembers⟩
    · rintro ⟨rfl, hmember, hmembers⟩
      exact ⟨_, _, ⟨rfl, hmember⟩, ⟨rfl, hmembers⟩, rfl⟩

/-- **Reading a line back.** What a reader gets for each name is what stands under it in the object
that was written. -/
theorem exists_parse?_jsonLine (hr : r.IsProper) {line : String} (h : r.jsonLine = .ok line) :
    ∃ s stamp message exception members, r.seconds = .ok s ∧ Instant.fullStamp s = .ok stamp ∧
      r.message = .ok message ∧ r.exception.text? = .ok exception ∧
      Json.parse? line = some (.object members) ∧
      Dictionary.names members = Dictionary.names (r.members stamp message exception) ∧
      ∀ name v, Dictionary.get? (r.members stamp message exception) name = some v →
        ∃ j, v = .json j ∧ Dictionary.get? members name = some j.readBack := by
  obtain ⟨s, stamp, message, exception, written, hs, hstamp, hmessage, hexception, -, hwritten,
    rfl⟩ := jsonLine_eq_ok_iff.1 h
  -- each value of the members is one that can be written
  obtain ⟨heq, hwritable⟩ := forall₂_memberJson_iff.1 hwritten
  have hnames : Dictionary.names (r.members stamp message exception) = Dictionary.names written :=
    heq ▸ Dictionary.names_map Value.json written
  have hget : ∀ name, Dictionary.get? (r.members stamp message exception) name =
      (Dictionary.get? written name).map Value.json := fun name =>
    heq ▸ Dictionary.get?_map Value.json written name
  have hnodup : (Dictionary.names written).Nodup := hnames ▸ nodup_names_members ..
  -- the values come from the record, which is proper
  have hproper : (Json.object written).IsProper := by
    refine .object hnodup fun member hmember => ?_
    have hvalue := hget member.1
    rw [(Dictionary.mem_iff_get? hnodup).1 hmember] at hvalue
    have hshown : ∀ name v, (name, v) ∈ r.attributes → isShown name = true →
        (shownValue v).IsProper := by
      intro name v hmem _
      cases v with
      | json v => exact hr.attributes _ hmem
      | path p => exact .str _
    exact forall_get?_members (P := Value.IsProper) hr.names .str hr.level hr.logger hshown hvalue
  refine ⟨s, stamp, message, exception, Json.readBackMembers written, hs, hstamp, hmessage,
    hexception, Json.parse?_render hproper (Json.membersWritable_iff.2 hwritable), ?_,
    fun name v hv => ?_⟩
  · rw [Json.names_readBackMembers, hnames]
  · rw [hget] at hv
    obtain ⟨j, hj, rfl⟩ := Option.map_eq_some_iff.1 hv
    exact ⟨j, rfl, by rw [Json.get?_readBackMembers, hj]; rfl⟩

/-! ### What a reader gets -/

/-- A member that can be written is JSON that can be written. -/
theorem exists_memberJson_iff {entry : String × Value} :
    (∃ member, memberJson entry = .ok member) ↔
      ∃ j, entry.2 = .json j ∧ j.isWritable = true := by
  simp only [memberJson_eq_ok_iff]
  constructor
  · rintro ⟨member, rfl, hwritable⟩
    exact ⟨member.2, rfl, hwritable⟩
  · rintro ⟨j, hj, hwritable⟩
    exact ⟨(entry.1, j), Prod.ext rfl hj, hwritable⟩

/-- When a line is written of a record whose level and logger are texts. -/
theorem exists_jsonLine_iff (hnames : (Dictionary.names r.attributes).Nodup)
    {level logger : String} (hlevel : r.level = .json (.str level))
    (hlogger : r.logger = .json (.str logger)) :
    (∃ line, r.jsonLine = .ok line) ↔
      (∃ s stamp, r.seconds = .ok s ∧ Instant.fullStamp s = .ok stamp) ∧
      (∃ message, Message.fill r.template.toText r.arguments = .ok message) ∧
      makerName ∉ Dictionary.names r.attributes ∧ (∃ text, r.exception.text? = .ok text) ∧
      ∀ name v, (name, .json v) ∈ r.attributes → IsExtra name →
        ∀ n, Json.Holds n v → n.natAbs < Nat.pow 10 Json.maxDigits := by
  simp only [← Json.isWritable_iff]
  -- each attribute that is shown is tried by itself before the line is written
  have hshown : (∃ shown, r.shownAttributes.mapM (fun entry =>
      memberJson (entry.1, shownValue entry.2)) = .ok shown) ↔
      ∀ name v, (name, .json v) ∈ r.attributes → IsExtra name → v.isWritable = true := by
    simp only [mapM_eq_ok_iff, exists_forall₂_iff, exists_memberJson_iff, shownAttributes,
      List.mem_filter, isShown_iff]
    constructor
    · intro h name v hmem hextra
      obtain ⟨j, hj, hwritable⟩ := h (name, .json v) ⟨hmem, hextra⟩
      cases hj
      exact hwritable
    · rintro h ⟨name, v⟩ ⟨hmem, hextra⟩
      cases v with
      | json v => exact ⟨v, rfl, h name v hmem hextra⟩
      | path p => exact ⟨.str p.toText, rfl, rfl⟩
  constructor
  · rintro ⟨line, h⟩
    obtain ⟨s, stamp, message, exception, -, hs, hstamp, hmessage, hexception, hattributes, -⟩ :=
      jsonLine_eq_ok_iff.1 h
    obtain ⟨hfill, hmaker⟩ := message_eq_ok_iff.1 hmessage
    exact ⟨⟨s, stamp, hs, hstamp⟩, ⟨message, hfill⟩, hmaker, ⟨exception, hexception⟩,
      hshown.1 hattributes⟩
  · rintro ⟨⟨s, stamp, hs, hstamp⟩, ⟨message, hfill⟩, hmaker, ⟨exception, hexception⟩, hattributes⟩
    have hmessage := message_eq_ok_iff.2 ⟨hfill, hmaker⟩
    -- what else stands in the object are texts, and these can always be written
    have hmembers : ∃ members, List.Forall₂ (fun entry member => memberJson entry = .ok member)
        (r.members stamp message exception) members := by
      rw [exists_forall₂_iff]
      rintro ⟨name, v⟩ hmem
      rw [exists_memberJson_iff]
      have hv := (Dictionary.mem_iff_get? (nodup_names_members ..)).1 hmem
      refine forall_get?_members (P := fun v => ∃ j, v = .json j ∧ j.isWritable = true) hnames
        (fun text => ⟨.str text, rfl, rfl⟩) ⟨_, hlevel, rfl⟩ ⟨_, hlogger, rfl⟩
        (fun name v hmem hname => ?_) hv
      cases v with
      | json v => exact ⟨v, rfl, hattributes name v hmem (isShown_iff.1 hname)⟩
      | path p => exact ⟨.str p.toText, rfl, rfl⟩
    obtain ⟨members, hmembers⟩ := hmembers
    exact ⟨_, jsonLine_eq_ok_iff.2 ⟨s, stamp, message, exception, members, hs, hstamp, hmessage,
      hexception, hshown.2 hattributes, hmembers, rfl⟩⟩

/-- **A line and its record.** A line is written of a record, whose level and logger are texts,
exactly if there is a stamp, the template takes its arguments, no attribute stands in the place of
what makes messages, there is a text for the exception, and no integer in an attribute that is shown
has more digits than can be written. It is one line, and a reader of JSON gets an object from it
that has the message, and the value of every attribute that is shown, where a path is its text; and
that has no names but the fixed ones, those of the attributes that are shown, and that of the
exception where there is one. -/
theorem jsonLine_reads_back (hr : r.IsProper) :
    (∀ level logger : String, r.level = .json (.str level) → r.logger = .json (.str logger) →
      ((∃ line, r.jsonLine = .ok line) ↔
        (∃ s stamp, r.seconds = .ok s ∧ Instant.fullStamp s = .ok stamp) ∧
        (∃ message, Message.fill r.template.toText r.arguments = .ok message) ∧
        "getMessage" ∉ Dictionary.names r.attributes ∧ (∃ text, r.exception.text? = .ok text) ∧
        ∀ name v, (name, .json v) ∈ r.attributes → IsExtra name →
          ∀ n, Json.Holds n v → n.natAbs < Nat.pow 10 Json.maxDigits)) ∧
    ∀ line, r.jsonLine = .ok line →
      (∀ c ∈ line.toList, c ≠ '\n' ∧ c ≠ '\r') ∧
      ∃ members : Dictionary Json, Json.parse? line = some (.object members) ∧
        (∃ message, Message.fill r.template.toText r.arguments = .ok message ∧
          Dictionary.get? members "message" = some (.str message)) ∧
        (∀ name v, (name, .json v) ∈ r.attributes → IsExtra name → v.HasNoFloat →
          Dictionary.get? members name = some v) ∧
        (∀ name p, (name, .path p) ∈ r.attributes → IsExtra name →
          Dictionary.get? members name = some (.str p.toText)) ∧
        (∀ text, r.exception.text? = .ok (some text) →
          Dictionary.get? members "exc_info" = some (.str text)) ∧
        ∀ name, name ∈ Dictionary.names members ↔
          name ∈ ["timestamp", "level", "logger", "message"] ∨
            (name ∈ Dictionary.names r.attributes ∧ IsExtra name) ∨
            (name = "exc_info" ∧ ∃ text, r.exception.text? = .ok (some text)) := by
  refine ⟨fun level logger hlevel hlogger => exists_jsonLine_iff hr.names hlevel hlogger,
    fun line h => ?_⟩
  -- one line: what is written of an object has no control characters
  have hone : ∀ c ∈ line.toList, c ≠ '\n' ∧ c ≠ '\r' := by
    obtain ⟨-, -, -, -, written, -, -, -, -, -, -, rfl⟩ := jsonLine_eq_ok_iff.1 h
    intro c hc
    rw [Json.render, String.toList_ofList] at hc
    exact (Json.isPlain_of_mem_chars hc).ne_lineEnd
  -- what is read: under each name what stands under it in the object that was written
  obtain ⟨s, stamp, message, exception, members, -, -, hmessage, hexception, hparse, hnames,
    hget⟩ := exists_parse?_jsonLine hr h
  have hread : ∀ {name j}, Dictionary.get? (r.members stamp message exception) name =
      some (.json j) → Dictionary.get? members name = some j.readBack := by
    intro name j hmember
    obtain ⟨_, hj, hread⟩ := hget name _ hmember
    exact Value.json.inj hj ▸ hread
  -- the message, the attributes, those that are paths, the exception, and all names
  refine ⟨hone, members, hparse, ⟨message, (message_eq_ok_iff.1 hmessage).1, ?_⟩,
    fun name v hmem hextra hfloat => ?_, fun name p hmem hextra => ?_, fun text htext => ?_,
    fun name => ?_⟩
  · exact hread (get?_members_message hr.names ..)
  · rw [hread (get?_members_of_isExtra hr.names hmem hextra ..), hfloat.readBack_eq]
  · exact hread (get?_members_of_isExtra hr.names hmem hextra ..)
  · obtain rfl := Except.ok.inj (hexception.symm.trans htext)
    exact hread (get?_members hr.names stamp message _ "exc_info")
  · rw [hnames, mem_names_members_iff, isShown_iff, hexception]
    simp only [Except.ok.injEq, Option.isSome_iff_exists]

/-- A record with line ends in its message, with attributes of every kind, one of which is kept
back, and with an exception. -/
def sampleRecord : LogRecord where
  created := .json (.int 0)
  level := .json (.str "INFO")
  logger := .json (.str "")
  template := .json (.str "a\r\n\"b\"")
  attributes := [("op", .json (.str "tab\there")), ("source", .path (Path.ofText "maps/a.xml")),
    ("counts", .json (.array [.int (-12), .null, .object [("k\n", .bool true)]])),
    ("_kept", .json (.int 1))]
  exception := .note ⟨"ValueError", "bad\nvalue"⟩

theorem isProper_sampleRecord : sampleRecord.IsProper where
  level := .str _
  logger := .str _
  names := by decide
  attributes := by
    have hobject : (Json.object [("k\n", .bool true)]).IsProper :=
      .object (by decide) (List.forall_mem_singleton.2 (.bool true))
    have hcounts : (Json.array [.int (-12), .null, .object [("k\n", .bool true)]]).IsProper :=
      .array (by simp [hobject, Json.IsProper.int, Json.IsProper.null])
    intro entry hentry
    simp only [sampleRecord, List.mem_cons, List.not_mem_nil, or_false] at hentry
    rcases hentry with rfl | rfl | rfl | rfl
    · exact .str _
    · exact trivial
    · exact hcounts
    · exact .int 1

/-- Its line. -/
def sampleLine : String :=
  "\x7b\"timestamp\": \"1970-01-01T00:00:00+00:00\", \"level\": \"INFO\", \"logger\": \"root\", " ++
  "\"message\": \"a\\r\\n\\\"b\\\"\", \"op\": \"tab\\there\", \"source\": \"maps/a.xml\", " ++
  "\"counts\": [-12, null, \x7b\"k\\n\": true\x7d], \"exc_info\": \"ValueError: bad\\nvalue\"\x7d"

/-- A record with one attribute. -/
def recordWith (name : String) (v : Json) : LogRecord where
  created := .json (.int 0)
  level := .json (.str "INFO")
  logger := .json (.str "root")
  template := .json (.str "m")
  attributes := [(name, .json v)]

/-- The least integer with too many digits. -/
def leastTooLong : Int := (Nat.pow 10 Json.maxDigits : Nat)

theorem isProper_recordWith (name : String) {v : Json} (hv : v.IsProper) :
    (recordWith name v).IsProper where
  level := .str _
  logger := .str _
  names := List.nodup_singleton name
  attributes := List.forall_mem_singleton.2 hv

theorem jsonLine_reads_back_sampleRecord :
    (sampleRecord.IsProper ∧ sampleRecord.jsonLine = .ok sampleLine ∧
      (∀ c ∈ sampleLine.toList, c ≠ '\n' ∧ c ≠ '\r') ∧
      ∃ members : Dictionary Json, Json.parse? sampleLine = some (.object members) ∧
        Dictionary.get? members "message" = some (.str "a\r\n\"b\"") ∧
        Dictionary.get? members "counts" =
          some (.array [.int (-12), .null, .object [("k\n", .bool true)]]) ∧
        Dictionary.get? members "exc_info" = some (.str "ValueError: bad\nvalue") ∧
        "_kept" ∉ Dictionary.names members) ∧
    (∀ line, (recordWith "n" (.int leastTooLong)).jsonLine ≠ .ok line) ∧
    ∀ line, (recordWith "getMessage" (.str "v")).jsonLine ≠ .ok line := by
  have hline : sampleRecord.jsonLine = .ok sampleLine := eq_ok_of_toOption (by decide +kernel)
  have hfill : Message.fill sampleRecord.template.toText sampleRecord.arguments =
      .ok "a\r\n\"b\"" := eq_ok_of_toOption (by decide +kernel)
  have hexception : sampleRecord.exception.text? = .ok (some "ValueError: bad\nvalue") :=
    eq_ok_of_toOption (by decide +kernel)
  have hobject : (Json.object [("k\n", .bool true)]).HasNoFloat :=
    .object (List.forall_mem_singleton.2 (.bool true))
  have hfloat : (Json.array [.int (-12), .null, .object [("k\n", .bool true)]]).HasNoFloat :=
    .array (by simp [hobject, Json.HasNoFloat.int, Json.HasNoFloat.null])
  -- the line of the record, read back
  obtain ⟨hone, members, hparse, ⟨message, hfill', hread⟩, hvalue, -, htext, hnames⟩ :=
    (jsonLine_reads_back isProper_sampleRecord).2 sampleLine hline
  obtain rfl := Except.ok.inj (hfill.symm.trans hfill')
  have hkept : "_kept" ∉ Dictionary.names members := by
    rw [hnames]
    rintro (hfixed | ⟨-, hextra⟩ | ⟨heq, -⟩)
    · exact absurd hfixed (by decide)
    · exact hextra.head?_ne (by decide)
    · exact absurd heq (by decide)
  refine ⟨⟨isProper_sampleRecord, hline, hone, members, hparse, hread,
    hvalue "counts" _ (by simp [sampleRecord]) ⟨by decide, by decide⟩ hfloat,
    htext _ hexception, hkept⟩, fun line h => ?_, fun line h => ?_⟩
  · -- an integer with one digit too many
    obtain ⟨-, -, -, -, hdigits⟩ := ((jsonLine_reads_back
      (isProper_recordWith "n" (.int leastTooLong))).1 "INFO" "root" rfl rfl).1 ⟨line, h⟩
    have hlt := hdigits "n" (.int leastTooLong) (List.mem_singleton.2 rfl) ⟨by decide, by decide⟩
      leastTooLong .int
    rw [leastTooLong, Int.natAbs_natCast] at hlt
    exact absurd hlt (Nat.lt_irrefl _)
  · -- an attribute in the place of what makes the message
    obtain ⟨-, -, hmaker, -⟩ := ((jsonLine_reads_back
      (isProper_recordWith "getMessage" (.str "v"))).1 "INFO" "root" rfl rfl).1 ⟨line, h⟩
    exact hmaker (List.mem_singleton.2 rfl)

/-! ### The fixed names -/

/-- **The fixed names.** The message that a reader gets is that of the record. Under each of the
other fixed names it gets what an attribute of that name has, and the record's own only if there is
no such attribute. -/
theorem jsonLine_fixed_members (hr : r.IsProper) {line : String} (h : r.jsonLine = .ok line) :
    ∃ s stamp message members, r.seconds = .ok s ∧ Instant.fullStamp s = .ok stamp ∧
      r.message = .ok message ∧ Json.parse? line = some (.object members) ∧
      Dictionary.get? members "message" = some (.str message) ∧
      ∀ name own, (name, own) ∈ [("timestamp", .json (.str stamp)), ("level", r.level),
          ("logger", if r.logger.isNothing then .json (.str "root") else r.logger)] →
        (∀ v, (name, v) ∈ r.attributes →
          ∃ j, shownValue v = .json j ∧ Dictionary.get? members name = some j.readBack) ∧
        (name ∉ Dictionary.names r.attributes →
          ∃ j, own = .json j ∧ Dictionary.get? members name = some j.readBack) := by
  obtain ⟨s, stamp, message, exception, members, hs, hstamp, hmessage, -, hparse, -, hget⟩ :=
    exists_parse?_jsonLine hr h
  refine ⟨s, stamp, message, members, hs, hstamp, hmessage, hparse, ?_, fun name own hown => ?_⟩
  · obtain ⟨j, hj, hmember⟩ := hget "message" _ (get?_members_message hr.names ..)
    cases hj
    exact hmember
  · -- none of the three names is reserved, so an attribute may take it
    have hname : IsExtra name ∧ name ≠ "exc_info" ∧
        Dictionary.get? (r.baseMembers stamp message) name = some own := by
      simp only [List.mem_cons, List.not_mem_nil, or_false, Prod.mk.injEq] at hown
      rcases hown with ⟨rfl, rfl⟩ | ⟨rfl, rfl⟩ | ⟨rfl, rfl⟩
      · exact ⟨⟨by decide, by decide⟩, by decide, rfl⟩
      · exact ⟨⟨by decide, by decide⟩, by decide, rfl⟩
      · exact ⟨⟨by decide, by decide⟩, by decide, rfl⟩
    obtain ⟨hextra, hne, hbase⟩ := hname
    refine ⟨fun v hmem => hget name _ (get?_members_of_isExtra hr.names hmem hextra ..),
      fun hnot => hget name own ?_⟩
    rw [get?_members_of_not hr.names hne (fun hmem => absurd hmem hnot), hbase]

/-- A record with an attribute that is called like its level. -/
def renamedRecord : LogRecord where
  created := .json (.int 0)
  level := .json (.str "INFO")
  logger := .json (.str "app")
  template := .json (.str "started")
  attributes := [("level", .json (.str "OVERRIDE"))]

/-- Its line. -/
def renamedLine : String :=
  "\x7b\"timestamp\": \"1970-01-01T00:00:00+00:00\", \"level\": \"OVERRIDE\", " ++
  "\"logger\": \"app\", \"message\": \"started\"\x7d"

theorem jsonLine_fixed_members_renamedRecord : renamedRecord.IsProper ∧
    renamedRecord.level = .json (.str "INFO") ∧ renamedRecord.jsonLine = .ok renamedLine ∧
    ∃ members : Dictionary Json, Json.parse? renamedLine = some (.object members) ∧
      Dictionary.get? members "level" = some (.str "OVERRIDE") ∧
      Dictionary.get? members "logger" = some (.str "app") := by
  have hproper : renamedRecord.IsProper :=
    ⟨.str _, .str _, by decide, List.forall_mem_singleton.2 (.str _)⟩
  have hline : renamedRecord.jsonLine = .ok renamedLine := eq_ok_of_toOption (by decide +kernel)
  obtain ⟨s, stamp, message, members, -, -, -, hparse, -, hfixed⟩ :=
    jsonLine_fixed_members hproper hline
  obtain ⟨level, hlevel, hread⟩ :=
    (hfixed "level" _ (.tail _ (.head _))).1 _ (List.mem_singleton.2 rfl)
  obtain ⟨logger, hlogger, hread'⟩ :=
    (hfixed "logger" _ (.tail _ (.tail _ (.head _)))).2 (by decide)
  cases hlevel
  cases hlogger
  exact ⟨hproper, rfl, hline, members, hparse, hread, hread'⟩

end LogRecord

end Depot
