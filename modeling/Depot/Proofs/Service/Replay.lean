import Depot.Proofs.Outcome
import Depot.Proofs.Repository.Arrival
import Depot.Proofs.Repository.Simulation
import Depot.Proofs.Service.Remembering
/-!
# Answers as they can be read off a memory

A tree in service reads maps and metadata when they are first needed, and remembers them. What it
remembers stays (`Memory.GrowsTo`), so a request that was answered can be looked at again from the
memory that it left: by then all that it needed is remembered, and a tree that only looks things up
there (`ServedTree.accessIn`) comes to the same answer (`ServedTree.resolve_accessIn`). This needs
no assumption on what the sources of maps agree about. All that it asks of a memory is that its
numbers stand for maps (`Memory.IsNumbered`), which no request changes, be it answered or not, so
they do in any service (`Memory.isNumbered_afterRequests`).

So what is known of trees over any fixed access is known of trees in service. The last section draws
this conclusion for what an answer keeps of its request.
-/

namespace Depot

/-! ### Memories that grow -/

/-- Every number that is remembered for a map stands for a published one. -/
def Memory.IsNumbered (memory : Memory) : Prop :=
  ∀ key number, memory.maps.get? key = some number → number < memory.published.length

/-- A memory over the same files in which all stays that was remembered. -/
structure Memory.GrowsTo (memory later : Memory) : Prop where
  files : later.files = memory.files
  published : memory.published <+: later.published
  maps : ∀ key number, memory.maps.get? key = some number → later.maps.get? key = some number
  metadata : ∀ key found, memory.metadata.get? key = some found →
    later.metadata.get? key = some found

namespace Memory

theorem GrowsTo.refl (memory : Memory) : memory.GrowsTo memory :=
  ⟨rfl, List.prefix_rfl, fun _ _ h => h, fun _ _ h => h⟩

theorem GrowsTo.trans {a b c : Memory} (hab : a.GrowsTo b) (hbc : b.GrowsTo c) : a.GrowsTo c where
  files := hbc.files.trans hab.files
  published := hab.published.trans hbc.published
  maps key number h := hbc.maps key number (hab.maps key number h)
  metadata key found h := hbc.metadata key found (hab.metadata key found h)

/-- Warnings that are noted change nothing of what is remembered. -/
theorem growsTo_warned (memory : Memory) (warnings : List Warning) :
    memory.GrowsTo { memory with warnings } :=
  ⟨rfl, List.prefix_rfl, fun _ _ h => h, fun _ _ h => h⟩

theorem IsNumbered.warned {memory : Memory} (h : memory.IsNumbered) (warnings : List Warning) :
    Memory.IsNumbered { memory with warnings } := h

theorem growsTo_publish (loader : Loader) (place : Place) (map : Depmap) (memory : Memory) :
    memory.GrowsTo (loader.publish place map memory) := by
  refine ⟨rfl, List.prefix_append _ _, fun key number h => ?_, fun _ _ h => h⟩
  rw [Loader.get?_publish, h]
  rfl

theorem growsTo_remember (memory : Memory) (key : Nat × List Nat) (found : List Metadata) :
    memory.GrowsTo { memory with metadata := memory.metadata.remember key found } := by
  refine ⟨rfl, List.prefix_rfl, fun _ _ h => h, fun other others h => ?_⟩
  show (memory.metadata.remember key found).get? other = some others
  rw [Memo.get?_remember, h]
  rfl

/-- A published map has the number of its place in the order of publication. -/
theorem IsNumbered.publish {memory : Memory} (h : memory.IsNumbered) (loader : Loader)
    (place : Place) (map : Depmap) : (loader.publish place map memory).IsNumbered := by
  intro key number hknown
  rw [Loader.get?_publish] at hknown
  have hlength : (loader.publish place map memory).published.length =
      memory.published.length + 1 := List.length_append
  rw [hlength]
  -- a place that is known keeps its number, a new one gets the last
  cases hold : memory.maps.get? key with
  | some old =>
    rw [hold] at hknown
    cases hknown
    exact Nat.lt_succ_of_lt (h key _ hold)
  | none =>
    rw [hold, Option.none_or] at hknown
    split at hknown
    · cases hknown
      exact Nat.lt_succ_self _
    · cases hknown

end Memory

/-! ### Looking things up -/

/-- Access to what a tree in service is given in a memory, with the memory left as it is. -/
def ServedTree.accessIn (tree : ServedTree) (memory : Memory) : Access (Except Failure) where
  isFile p := ((tree.access.isFile p).outcome memory).1
  metadata position paths := ((tree.access.metadata position paths).outcome memory).1
  map source := ((tree.access.map source).outcome memory).1

/-- Whatever comes of work, it leaves a memory that has grown; and if it comes to a value, then from
what is remembered at last `plain` comes to the same value. -/
def Serving.ReplaysIn (final : Memory) {α : Type} (work : Serving α) (plain : Except Failure α) :
    Prop :=
  ∀ (memory after : Memory) (outcome : Except Failure α), memory.IsNumbered →
    work.outcome memory = (outcome, after) → after.IsNumbered ∧ memory.GrowsTo after ∧
      ∀ a, outcome = .ok a → after.GrowsTo final → plain = .ok a

/-- Work that is put together is replayed as it is put together: what the first part has remembered
is still there at last. -/
def Serving.replaysIn (final : Memory) : Simulation Serving (Except Failure) where
  Agrees := Serving.ReplaysIn final
  pure a := by
    intro memory after outcome hnumbered hrun
    cases hrun
    exact ⟨hnumbered, .refl memory, fun b hb _ => hb⟩
  bind {_ _ work plain next follow} h hnext := by
    intro memory after outcome hnumbered hrun
    rcases hfirst : work.outcome memory with ⟨e | a, middle⟩
    · obtain ⟨hmiddle, hgrows, -⟩ := h memory middle _ hnumbered hfirst
      rw [Working.outcome_bind_of_error hfirst] at hrun
      cases hrun
      refine ⟨hmiddle, hgrows, fun b hb => ?_⟩
      cases hb
    · obtain ⟨hmiddle, hgrows, hplain⟩ := h memory middle _ hnumbered hfirst
      rw [Working.outcome_bind_of_ok hfirst] at hrun
      obtain ⟨hafter, hgrows', hfollow⟩ := hnext a middle after outcome hmiddle hrun
      refine ⟨hafter, hgrows.trans hgrows', fun b hb hfinal => ?_⟩
      rw [hplain a rfl (hgrows'.trans hfinal)]
      exact hfollow b hb hfinal

section

variable {final : Memory}

/-- Work on the files comes to the same whenever it is done, since they are the same files. -/
theorem replaysIn_onFiles {α : Type} (work : FileTree → Noting α) :
    Serving.ReplaysIn final (Serving.onFiles work) (((Serving.onFiles work).outcome final).1) := by
  intro memory after outcome hnumbered hrun
  rw [Serving.outcome_onFiles] at hrun
  obtain ⟨hvalue, rfl⟩ := Prod.mk.inj hrun
  refine ⟨hnumbered, memory.growsTo_warned _, fun a ha hfinal => ?_⟩
  rw [Serving.outcome_onFiles, hfinal.files]
  exact hvalue.trans ha

/-- Work that starts on the files either fails there or goes on with what came of it, and has noted
no more than warnings by then. -/
theorem outcome_onFiles_bind_cases {α β : Type} {work : FileTree → Noting α} {next : α → Serving β}
    {memory after : Memory} {outcome : Except Failure β}
    (hrun : (Serving.onFiles work >>= next).outcome memory = (outcome, after)) : ∃ warnings,
      (∃ e, outcome = .error e ∧ after = { memory with warnings }) ∨
      ∃ a, (work memory.files).value = .ok a ∧
        (next a).outcome { memory with warnings } = (outcome, after) := by
  have hfiles := Serving.outcome_onFiles work memory
  refine ⟨memory.warnings ++ ((work memory.files).outcome []).2, ?_⟩
  cases hvalue : (work memory.files).value with
  | error e =>
    rw [hvalue] at hfiles
    rw [Working.outcome_bind_of_error hfiles] at hrun
    cases hrun
    exact .inl ⟨e, rfl, rfl⟩
  | ok a =>
    rw [hvalue] at hfiles
    rw [Working.outcome_bind_of_ok hfiles] at hrun
    exact .inr ⟨a, rfl, hrun⟩

/-- A look at the memory itself changes nothing. -/
theorem outcome_get (memory : Memory) :
    (get : Serving Memory).outcome memory = (.ok memory, memory) := rfl

/-- A map that is remembered for the place of a root is the one that is given. -/
theorem Loader.outcome_loadMap_of_known {loader : Loader} {root : Path} {place : Place}
    {number : Nat} {memory : Memory}
    (hplace : (Noting.canonical memory.files root).value = .ok place)
    (hknown : memory.maps.get? (loader.number, place) = some number) (paths : List String) :
    ((loader.loadMap root paths).outcome memory).1 = .ok memory.published[number]? := by
  have hcanonical := Serving.outcome_onFiles (fun files => Noting.canonical files root) memory
  rw [hplace] at hcanonical
  unfold Loader.loadMap Loader.load Loader.loadAt
  rw [bind_assoc, Working.outcome_bind_of_ok hcanonical, bind_assoc,
    Working.outcome_bind_of_ok (outcome_get _)]
  simp only [hknown]
  rfl

/-- Whatever comes of the work of a loader for a place, the memory has grown; and if a number is
given, the map is remembered under it. -/
theorem Loader.known_of_outcome_loadAt {loader : Loader} {place : Place} {paths : List String}
    {outcome : Except Failure Nat} {memory after : Memory} (hnumbered : memory.IsNumbered)
    (hrun : (loader.loadAt place paths).outcome memory = (outcome, after)) :
    after.IsNumbered ∧ memory.GrowsTo after ∧
      ∀ number, outcome = .ok number → after.maps.get? (loader.number, place) = some number := by
  unfold Loader.loadAt at hrun
  rw [Working.outcome_bind_of_ok (outcome_get memory)] at hrun
  cases hknown : memory.maps.get? (loader.number, place) with
  | some old =>
    rw [hknown] at hrun
    -- known before, and still known
    cases hrun
    refine ⟨hnumbered, .refl memory, fun number hnumber => ?_⟩
    cases hnumber
    exact hknown
  | none =>
    rw [hknown] at hrun
    obtain ⟨warnings, ⟨e, rfl, rfl⟩ | ⟨map, -, hpublish⟩⟩ := outcome_onFiles_bind_cases hrun
    · refine ⟨hnumbered.warned _, memory.growsTo_warned _, fun number hnumber => ?_⟩
      cases hnumber
    · -- merged now and published, so it is known from here on
      cases hpublish
      refine ⟨(hnumbered.warned _).publish loader place map,
        (memory.growsTo_warned _).trans (Memory.growsTo_publish loader place map _),
        fun number hnumber => ?_⟩
      cases hnumber
      rw [Loader.get?_publish]
      show (memory.maps.get? (loader.number, place)).or _ = _
      rw [hknown, if_pos rfl]
      rfl

/-- **Maps.** A map that was given is still given at last. -/
theorem Loader.replaysIn_loadMap (loader : Loader) (root : Path) (paths : List String) :
    Serving.ReplaysIn final (loader.loadMap root paths)
      ((loader.loadMap root paths).outcome final).1 := by
  intro memory after outcome hnumbered hrun
  unfold Loader.loadMap Loader.load at hrun
  rw [bind_assoc] at hrun
  obtain ⟨warnings, ⟨e, rfl, rfl⟩ | ⟨place, hplace, hrun⟩⟩ := outcome_onFiles_bind_cases hrun
  · refine ⟨hnumbered.warned _, memory.growsTo_warned _, fun m? hm => ?_⟩
    cases hm
  · rcases hload : (loader.loadAt place paths).outcome { memory with warnings } with
      ⟨e | number, last⟩
    · obtain ⟨hlast, hgrows, -⟩ := known_of_outcome_loadAt (hnumbered.warned _) hload
      rw [Working.outcome_bind_of_error hload] at hrun
      cases hrun
      refine ⟨hlast, (memory.growsTo_warned _).trans hgrows, fun m? hm => ?_⟩
      cases hm
    · obtain ⟨hlast, hgrows, hknown⟩ := known_of_outcome_loadAt (hnumbered.warned _) hload
      rw [Working.outcome_bind_of_ok hload] at hrun
      cases hrun
      refine ⟨hlast, (memory.growsTo_warned _).trans hgrows, fun m? hm hfinal => ?_⟩
      cases hm
      -- the files, the number of the place and the map with that number are as they were
      have hplace' : (Noting.canonical final.files root).value = .ok place := by
        rw [hfinal.files, hgrows.files]
        exact hplace
      have hknown' := hknown number rfl
      obtain ⟨more, hmore⟩ := hfinal.published
      rw [outcome_loadMap_of_known hplace' (hfinal.maps _ _ hknown') paths, ← hmore,
        List.getElem?_append_left (hlast _ _ hknown')]

/-- Metadata that are remembered for a position are those that are given. -/
theorem ServedTree.outcome_metadata_of_known {tree : ServedTree} {position : List Nat}
    {found : List Metadata} {memory : Memory}
    (hknown : memory.metadata.get? (tree.number, position) = some found) (paths : List Path) :
    (tree.metadata position paths).outcome memory = (.ok found, memory) := by
  unfold ServedTree.metadata
  rw [Working.outcome_bind_of_ok (outcome_get memory), hknown]
  rfl

/-- **Metadata.** Metadata that were given are still given at last. -/
theorem ServedTree.replaysIn_metadata (tree : ServedTree) (position : List Nat)
    (paths : List Path) : Serving.ReplaysIn final (tree.metadata position paths)
      ((tree.metadata position paths).outcome final).1 := by
  intro memory after outcome hnumbered hrun
  cases hknown : memory.metadata.get? (tree.number, position) with
  | some found =>
    rw [outcome_metadata_of_known hknown] at hrun
    cases hrun
    -- known before, and still known
    refine ⟨hnumbered, .refl memory, fun sources hsources hfinal => ?_⟩
    rw [outcome_metadata_of_known (hfinal.metadata _ _ hknown), hsources]
  | none =>
    unfold ServedTree.metadata at hrun
    rw [Working.outcome_bind_of_ok (outcome_get memory), hknown] at hrun
    obtain ⟨warnings, ⟨e, rfl, rfl⟩ | ⟨found, -, hkeep⟩⟩ := outcome_onFiles_bind_cases hrun
    · refine ⟨hnumbered.warned _, memory.growsTo_warned _, fun sources hsources => ?_⟩
      cases hsources
    · -- loaded now, so it is known in every later memory
      cases hkeep
      refine ⟨hnumbered, (memory.growsTo_warned _).trans (Memory.growsTo_remember _ _ _),
        fun sources hsources hfinal => ?_⟩
      have hremembered : final.metadata.get? (tree.number, position) = some found := by
        refine hfinal.metadata _ _ ?_
        show (memory.metadata.remember (tree.number, position) found).get? _ = _
        rw [Memo.get?_remember, hknown, if_pos rfl]
        rfl
      rw [outcome_metadata_of_known hremembered]
      exact hsources

/-- **Requests.** Whatever comes of a request, the memory has grown; and an answer that was given
is still the one that looking things up comes to at last. -/
theorem ServedTree.replaysIn_resolve (tree : ServedTree) (c : Coordinate) :
    Serving.ReplaysIn final (tree.resolve c)
      (tree.repository.resolve (tree.accessIn final) [] c) := by
  have hfile : ∀ p, (Serving.replaysIn final).Agrees (tree.access.isFile p)
      ((tree.accessIn final).isFile p) :=
    fun p => replaysIn_onFiles fun files => Noting.ofFile (files.isFile p)
  have hmap : ∀ source ∈ tree.repository.sources, (Serving.replaysIn final).Agrees
      (tree.access.map source) ((tree.accessIn final).map source) :=
    fun source _ => tree.loader.replaysIn_loadMap source.root source.paths
  have hmetadata : ∀ leaf ∈ tree.repository.leaves [], (Serving.replaysIn final).Agrees
      (tree.access.metadata leaf.1 leaf.2) ((tree.accessIn final).metadata leaf.1 leaf.2) :=
    fun leaf _ => tree.replaysIn_metadata leaf.1 leaf.2
  exact Simulation.resolve _ hfile tree.repository hmap hmetadata c

end

/-- **Replay.** A tree in service that answers leaves a memory in which looking things up comes to
the same answer. -/
theorem ServedTree.resolve_accessIn {tree : ServedTree} {c : Coordinate} {memory after : Memory}
    {answer : Option Artifact} (hnumbered : memory.IsNumbered)
    (hrun : (tree.resolve c).outcome memory = (.ok answer, after)) :
    tree.repository.resolve (tree.accessIn after) [] c = .ok answer := by
  obtain ⟨-, -, hplain⟩ := tree.replaysIn_resolve c memory after _ hnumbered hrun
  exact hplain answer rfl (.refl after)

/-- A request is answered with what was resolved for it. -/
theorem ServedTree.exists_of_outcome_answer {tree : ServedTree} {c : Coordinate}
    {memory after : Memory} {resolution : Resolution}
    (hrun : (tree.answer c).outcome memory = (.ok resolution, after)) :
    ∃ answer, (tree.resolve c).outcome memory = (.ok answer, after) ∧
      resolution = Resolution.ofArtifact c answer := by
  unfold ServedTree.answer at hrun
  rw [map_eq_pure_bind] at hrun
  obtain ⟨answer, middle, hresolve, hpure⟩ := Working.exists_of_outcome_bind_eq_ok hrun
  cases hpure
  exact ⟨answer, hresolve, rfl⟩

/-! ### Memories of a service -/

/-- One request to a tree, whatever comes of it. -/
theorem ServedTree.isNumbered_of_answer (tree : ServedTree) (c : Coordinate) {memory : Memory}
    (h : memory.IsNumbered) : ((tree.answer c).outcome memory).2.IsNumbered := by
  rcases hrun : (tree.resolve c).outcome memory with ⟨outcome, after⟩
  -- what is made of the answer for the request leaves the memory as it is
  have hafter : ((tree.answer c).outcome memory).2 = after := by
    unfold ServedTree.answer
    rw [map_eq_pure_bind]
    cases outcome with
    | error e => rw [Working.outcome_bind_of_error hrun]
    | ok answer =>
      rw [Working.outcome_bind_of_ok hrun]
      rfl
  have hreplays : Serving.ReplaysIn after (tree.resolve c) _ := tree.replaysIn_resolve c
  rw [hafter]
  exact (hreplays memory after outcome h hrun).1

/-- A request to a tree, over the files as they are by then. -/
structure Request where
  files : FileTree
  tree : ServedTree
  coordinate : Coordinate

/-- What is remembered after some requests, one after the other. -/
def Memory.afterRequests (memory : Memory) (requests : List Request) : Memory :=
  requests.foldl (fun memory request =>
    ((request.tree.answer request.coordinate).outcome { memory with files := request.files }).2)
    memory

/-- **Any service.** Whatever requests there were, answered or failed, over files that change, every
number that is remembered stands for a map. -/
theorem Memory.isNumbered_afterRequests (t : FileTree) (requests : List Request) :
    (Memory.afterRequests { files := t } requests).IsNumbered := by
  have hrun : ∀ memory : Memory, memory.IsNumbered →
      (memory.afterRequests requests).IsNumbered := by
    induction requests with
    | nil => exact fun memory h => h
    | cons request requests ih =>
      intro memory h
      exact ih _ (request.tree.isNumbered_of_answer request.coordinate h)
  refine hrun _ fun key number hknown => ?_
  cases hknown

/-! ### What answers keep of requests -/

/-- **Nothing in an answer is invented.** Whatever a tree has access to, an answer keeps what
`Artifact.KeepsRequest` says of the request, over the targets of the maps on one way of the request
to a leaf. A tree in service does the same, over the maps that it remembers, and so the version that
is reported is the one that was asked for, or the reserved one. -/
theorem answers_keep_request :
    (∀ {ε : Type} (access : Access (Except ε)) (position : List Nat) (r : Repository)
      (c : Coordinate) (a : Artifact), r.resolve access position c = .ok (some a) →
      ∃ targets leaf d, r.Arrives access position c targets leaf d ∧ a.KeepsRequest c targets) ∧
    ∀ (tree : ServedTree) (memory after : Memory) (c : Coordinate), memory.IsNumbered →
      (∀ a, (tree.resolve c).outcome memory = (.ok (some a), after) →
        ∃ targets leaf d, tree.repository.Arrives (tree.accessIn after) [] c targets leaf d ∧
          a.KeepsRequest c targets) ∧
      ∀ resolution version, (tree.answer c).outcome memory = (.ok resolution, after) →
        resolution.version = some version → some version = c.version ∨ version = systemVersion := by
  refine ⟨fun access position r c a h => Repository.keepsRequest_of_resolve h, ?_⟩
  intro tree memory after c hnumbered
  -- with what the memory holds in the end, resolution gives the same answer
  have hresolve : ∀ a, (tree.resolve c).outcome memory = (.ok (some a), after) →
      ∃ targets leaf d, tree.repository.Arrives (tree.accessIn after) [] c targets leaf d ∧
        a.KeepsRequest c targets := by
    intro a hrun
    exact Repository.keepsRequest_of_resolve (ServedTree.resolve_accessIn hnumbered hrun)
  refine ⟨hresolve, fun resolution version hrun hversion => ?_⟩
  obtain ⟨answer, hanswer, rfl⟩ := ServedTree.exists_of_outcome_answer hrun
  cases answer with
  | none => cases hversion
  | some a =>
    obtain ⟨targets, leaf, d, -, hkeeps⟩ := hresolve a hanswer
    cases hversion
    exact hkeeps.version

/-- The request for an artifact, in version 1. -/
def sampleRequest : Coordinate where
  group := ⟨"g", by decide, by decide, by decide⟩
  artifact := ⟨"m", by decide, by decide, by decide⟩
  extension := .jar
  classifier := .none
  version := some "1"

/-- An identity with a classifier. -/
def sampleTarget : Identity where
  group := ⟨"x", by decide, by decide, by decide⟩
  artifact := ⟨"y", by decide, by decide, by decide⟩
  classifier := ⟨"k", by decide⟩

/-- A memory of files, among which is one for the identity, and of a map that maps the artifact to
it. -/
def sampleMemory : Memory where
  files := {
    nodes := [(["j"], .directory), (["j", "x"], .directory), (["j", "x", "y-1-k.jar"], .file [])]
    workingPlace := [] }
  published := [{ Depmap.empty with mappings := .ofList [(sampleRequest.identity, sampleTarget)] }]
  maps := ⟨[((0, []), 0)]⟩

/-- A tree that answers from this memory. -/
def sampleService : ServedTree where
  repository := .depmap {} ⟨.root, [], none⟩ (.jpp {} ⟨.root, ["j"]⟩)
  loader := ⟨0⟩
  number := 0

/-- The answer, in which only the classifier is that of the identity. -/
def sampleArtifact : Artifact where
  coordinate := sampleTarget.candidateFor sampleRequest
  path := "/j/x/y-1-k.jar"
  version := "1"
  source := "/j"
  namespaceName := ""

theorem answers_keep_request_sampleService :
    sampleService.repository.resolve (sampleService.accessIn sampleMemory) [] sampleRequest =
      .ok (some sampleArtifact) ∧
    (∃ targets leaf d, sampleService.repository.Arrives (sampleService.accessIn sampleMemory) []
      sampleRequest targets leaf d ∧ sampleArtifact.KeepsRequest sampleRequest targets) ∧
    sampleMemory.IsNumbered ∧ ∃ after,
      (sampleService.resolve sampleRequest).outcome sampleMemory =
        (.ok (some sampleArtifact), after) ∧
      (∃ targets leaf d, sampleService.repository.Arrives (sampleService.accessIn after) []
        sampleRequest targets leaf d ∧ sampleArtifact.KeepsRequest sampleRequest targets) ∧
      (sampleService.answer sampleRequest).outcome sampleMemory =
        (.ok (Resolution.ofArtifact sampleRequest (some sampleArtifact)), after) ∧
      (some "1" = sampleRequest.version ∨ "1" = systemVersion) := by
  -- the answers are evaluated; that they keep the request comes from the theorem
  have hplain : sampleService.repository.resolve (sampleService.accessIn sampleMemory) []
      sampleRequest = .ok (some sampleArtifact) := eq_ok_of_toOption (by decide +kernel)
  have hserved : ((sampleService.resolve sampleRequest).outcome sampleMemory).1 =
      .ok (some sampleArtifact) := eq_ok_of_toOption (by decide +kernel)
  have hnumbered : sampleMemory.IsNumbered := by
    -- this memory has published one map
    intro key number hknown
    obtain ⟨entry, hentry, rfl⟩ := Option.map_eq_some_iff.1 hknown
    cases List.mem_singleton.1 (List.mem_of_find?_eq_some hentry)
    exact Nat.one_pos
  obtain ⟨after, hrun⟩ : ∃ after, (sampleService.resolve sampleRequest).outcome sampleMemory =
      (.ok (some sampleArtifact), after) := by
    rcases hdone : (sampleService.resolve sampleRequest).outcome sampleMemory with ⟨outcome, after⟩
    rw [hdone] at hserved
    exact ⟨after, congrArg (·, after) hserved⟩
  have hanswer : (sampleService.answer sampleRequest).outcome sampleMemory =
      (.ok (Resolution.ofArtifact sampleRequest (some sampleArtifact)), after) := by
    unfold ServedTree.answer
    rw [map_eq_pure_bind, Working.outcome_bind_of_ok hrun]
    rfl
  -- the theorem has a half for any access and one for a tree in service
  obtain ⟨hany, hservice⟩ := answers_keep_request
  have hafter := hservice sampleService sampleMemory after sampleRequest hnumbered
  exact ⟨hplain, hany _ _ _ _ _ hplain, hnumbered, after, hrun, hafter.1 _ hrun, hanswer,
    hafter.2 _ "1" hanswer rfl⟩

end Depot
