import MicroRosAgent.GraphManager.Publish
import MicroRosAgent.GraphCache.Reference
import MicroRosAgent.Interleaving.Lts

/-! # Nodes that vanish while the graph is built

One iteration of the publisher thread, with changes of the cache between its queries.  A
query by node fails exactly if the node is gone by then, and the `break` it leads to ends
the whole loop: of the listed names, those before the first failure get a node in the
message (`buildNodes_replay`).  So the nodes that stay are all published exactly if each
of them was listed before the name that failed (`all_listed_iff`).
-/

namespace MicroRosAgent.GraphManager.VanishingNodes

open Interleaving Utils

variable {Cache : Type} [GraphCache Cache]

/-! ## The iteration -/

structure State (Cache : Type) where
  cache : Cache
  -- what is left of the iteration
  program : Reading GraphMessage

inductive Event where
  | mutate (mutator : Mutator)
  | query

def step (state : State Cache) : Event → Option (State Cache)
  | .mutate mutator =>
      (mutator.perform state.cache).map fun after => { state with cache := after.2 }
  | .query =>
      match state.program with
      | .call query next => some { state with program := next (answer query state.cache) }
      | _ => none

def system (Cache : Type) [GraphCache Cache] : Lts (State Cache) Event := ⟨step⟩

/-- The caches the queries of the iteration see, in order. -/
def queried (state : State Cache) (events : List Event) : List Cache :=
  ((system Cache).visits state events).filterMap fun visit =>
    match visit.2 with
    | .query => some visit.1.cache
    | .mutate _ => none

def Present (cache : Cache) (key : Text × Text) : Prop := ∃ gid, HasNode cache gid key

/-- The query by node for the name at `position` sees a cache without that node.  Its two
    queries by node are the first of the four that the name takes, and one query, for the
    names, comes before all. -/
def Fails (nodeNames : List (Text × Text)) (caches : List Cache) (position : Nat) : Prop :=
  ∃ key cache, nodeNames[position]? = some key ∧
    (caches[4 * position]? = some cache ∨ caches[4 * position + 1]? = some cache) ∧
    ¬ Present cache key

variable [Rmw] [LawfulQueries Cache]

/-- How one node of the loop can go: its node is there for both queries by node, or it is
gone at the first, or at the second. -/
theorem buildNode_replay {key : Text × Text} {snapshots : List Cache} {α : Type} {result : α}
    {next : Option NodeMessage → Reading α}
    (replayed : (buildNode key.1 key.2 >>= next).replay answer snapshots = some result) :
    (∃ first second third fourth rest message,
        snapshots = first :: second :: third :: fourth :: rest ∧
        Present first key ∧ Present second key ∧ message.key = key ∧
        (next (some message)).replay answer rest = some result) ∨
      (∃ first rest, snapshots = first :: rest ∧ ¬ Present first key ∧
        (next none).replay answer rest = some result) ∨
      ∃ first second rest, snapshots = first :: second :: rest ∧ Present first key ∧
        ¬ Present second key ∧ (next none).replay answer rest = some result := by
  have present : ∀ {cache : Cache} {found : Option NamesAndTypes},
      (found = none ↔ ∀ gid, ¬ HasNode cache gid key) → (Present cache key ↔ found ≠ none) := by
    intro cache found missing
    rw [ne_eq, missing]
    simp [Present]
  cases snapshots with
  | nil => cases replayed
  | cons first rest =>
    have atFirst := present (LawfulQueries.getWriters_none key.1 key.2 demangleRosTopicFromTopic
      demangleIfRosType first)
    simp only [buildNode, ask, Program.perform_bind, Program.call_bind, Program.replay_call_cons,
      answer] at replayed
    cases writers : GraphCache.getWriterNamesAndTypesByNode key.1 key.2 demangleRosTopicFromTopic
        demangleIfRosType first with
    | none =>
      simp only [writers, Program.pure_eq, Program.done_bind] at replayed
      exact Or.inr (Or.inl ⟨first, rest, rfl, by simp [atFirst, writers], replayed⟩)
    | some writers' =>
      have firstPresent : Present first key := by simp [atFirst, writers]
      simp only [writers, Program.call_bind] at replayed
      cases rest with
      | nil => cases replayed
      | cons second rest =>
        have atSecond := present (LawfulQueries.getReaders_none key.1 key.2
          demangleRosTopicFromTopic demangleIfRosType second)
        simp only [Program.replay_call_cons, answer] at replayed
        cases readers : GraphCache.getReaderNamesAndTypesByNode key.1 key.2
            demangleRosTopicFromTopic demangleIfRosType second with
        | none =>
          simp only [readers, Program.pure_eq, Program.done_bind] at replayed
          exact Or.inr (Or.inr
            ⟨first, second, rest, rfl, firstPresent, by simp [atSecond, readers], replayed⟩)
        | some readers' =>
          have secondPresent : Present second key := by simp [atSecond, readers]
          simp only [readers, Program.call_bind] at replayed
          -- the queries over the whole cache do not fail
          cases rest with
          | nil => cases replayed
          | cons third rest =>
            obtain ⟨servers, gotServers, _⟩ := LawfulQueries.getNamesAndTypes
              demangleServiceRequestFromTopic demangleServiceTypeOnly third
            simp only [Program.replay_call_cons, answer, gotServers, Program.call_bind] at replayed
            cases rest with
            | nil => cases replayed
            | cons fourth rest =>
              obtain ⟨clients, gotClients, _⟩ := LawfulQueries.getNamesAndTypes
                demangleServiceReplyFromTopic demangleServiceTypeOnly fourth
              simp only [Program.replay_call_cons, answer, gotClients, Program.pure_eq,
                Program.done_bind] at replayed
              exact Or.inl ⟨first, second, third, fourth, rest, _, rfl, firstPresent, secondPresent,
                rfl, replayed⟩

/-- The nodes of the message are the listed names before the first that fails, or all. -/
theorem buildNodes_replay {nodeNames : List (Text × Text)} {snapshots : List Cache}
    {nodes : List NodeMessage}
    (replayed : (buildNodes nodeNames).replay answer snapshots = some nodes) :
    ∃ count, nodes.map NodeMessage.key = nodeNames.take count ∧
      ∀ position, Fails nodeNames snapshots position ↔
        position = count ∧ count < nodeNames.length := by
  induction nodeNames generalizing snapshots nodes with
  | nil =>
    obtain ⟨rfl, rfl⟩ := Program.replay_done_eq_some replayed
    exact ⟨0, rfl, by simp [Fails]⟩
  | cons key nodeNames ih =>
    obtain ⟨first, second, third, fourth, rest, message, rfl, there, still, named, replayed⟩ |
      ⟨first, rest, rfl, gone, replayed⟩ | ⟨first, second, rest, rfl, there, gone, replayed⟩ :=
      buildNode_replay replayed
    · obtain ⟨before, after, others, rfl, rebuilt, replayed⟩ := Program.replay_bind_eq_some replayed
      obtain ⟨rfl, rfl⟩ := Program.replay_done_eq_some replayed
      obtain ⟨count, keys, fails⟩ := ih rebuilt
      refine ⟨count + 1, by simp [named, keys], ?_⟩
      intro position
      cases position with
      | zero =>
        simp [Fails, there, still]
      | succ position =>
        have shifted := fails position
        simp only [Fails] at shifted
        simp only [Fails, List.getElem?_cons_succ, Nat.mul_add, List.append_nil, shifted,
          List.length_cons, Nat.add_right_cancel_iff, Nat.add_lt_add_iff_right]
    · obtain ⟨rfl, rfl⟩ := Program.replay_done_eq_some replayed
      refine ⟨0, rfl, ?_⟩
      intro position
      cases position with
      | zero => simp [Fails, gone]
      | succ position => simp [Fails, Nat.mul_add]
    · obtain ⟨rfl, rfl⟩ := Program.replay_done_eq_some replayed
      refine ⟨0, rfl, ?_⟩
      intro position
      cases position with
      | zero => simp [Fails, gone]
      | succ position => simp [Fails, Nat.mul_add]

/-! ## Runs -/

omit [Rmw] [LawfulQueries Cache] in
/-- A run that ends the iteration replays its program on the caches it queried. -/
theorem replay_of_exec {state final : State Cache} {events : List Event} {graph : GraphMessage}
    (reached : (system Cache).exec state events = some final)
    (finished : final.program = .done graph) :
    state.program.replay answer (queried state events) = some graph := by
  induction events generalizing state with
  | nil =>
    cases reached
    rw [finished]
    rfl
  | cons event events ih =>
    rw [Lts.exec_cons] at reached
    obtain ⟨next, stepped, reached⟩ := Option.bind_eq_some_iff.mp reached
    have rest := ih reached
    cases event with
    | mutate mutator =>
      obtain ⟨answer, performed, rfl⟩ := Option.map_eq_some_iff.mp stepped
      simpa [queried, Lts.visits, stepped] using rest
    | query =>
      cases program : state.program with
      | done value => simp [system, step, program] at stepped
      | fault => simp [system, step, program] at stepped
      | call query next =>
        have stepped' := stepped
        simp only [system, step, program, Option.some.injEq] at stepped'
        subst stepped'
        simpa [queried, Lts.visits, stepped] using rest

/-- The node is in the cache during the whole run. -/
def Stays (cache : Cache) (events : List Event) (key : Text × Text) : Prop :=
  (system Cache).Throughout (fun state => Present state.cache key) ⟨cache, publishMicrorosGraph⟩ events

/-- A complete iteration publishes every node that stays if and only if, whenever a query
by node fails, all nodes that stay were listed before the one it failed for. -/
theorem all_listed_iff (cache : Cache) (events : List Event) (final : State Cache)
    (graph : GraphMessage)
    (reached : (system Cache).exec ⟨cache, publishMicrorosGraph⟩ events = some final)
    (finished : final.program = .done graph) :
    (∀ key, Stays cache events key → key ∈ graph.nodes.map NodeMessage.key) ↔
      ∀ listing caches, queried ⟨cache, publishMicrorosGraph⟩ events = listing :: caches →
        ∀ position, Fails (GraphCache.getNodeNames listing) caches position →
          ∀ key, Stays cache events key →
            key ∈ (GraphCache.getNodeNames listing).take position := by
  have replayed := replay_of_exec reached finished
  cases seen : queried ⟨cache, publishMicrorosGraph⟩ events with
  | nil =>
    rw [seen] at replayed
    cases replayed
  | cons listing caches =>
    rw [seen] at replayed
    simp only [publishMicrorosGraph, ask, Program.perform_bind, Program.replay_call_cons,
      answer] at replayed
    obtain ⟨before, after, nodes, split, built, replayed⟩ := Program.replay_bind_eq_some replayed
    obtain ⟨rfl, rfl⟩ := Program.replay_done_eq_some replayed
    rw [List.append_nil] at split
    subst split
    obtain ⟨count, keys, fails⟩ := buildNodes_replay built
    have listed : ∀ key, Stays cache events key → key ∈ GraphCache.getNodeNames listing := by
      intro key stays
      have inside : listing ∈ queried ⟨cache, publishMicrorosGraph⟩ events := by simp [seen]
      obtain ⟨visit, visited, selected⟩ := List.mem_filterMap.mp inside
      have there := Lts.Throughout.visits (system Cache) stays visit visited
      have same : visit.1.cache = listing := by
        cases event : visit.2 with
        | query => simpa [event] using selected
        | mutate mutator => simp [event] at selected
      rw [mem_getNodeNames, ← same]
      exact there
    simp only [keys]
    constructor
    · intro published listing' caches' equal position failed key stays
      cases equal
      obtain ⟨rfl, _⟩ := (fails position).mp failed
      exact published key stays
    · intro listedBefore key stays
      by_cases short : count < (GraphCache.getNodeNames listing).length
      · exact listedBefore listing caches rfl count ((fails count).mpr ⟨rfl, short⟩) key stays
      · rw [List.take_of_length_le (Nat.le_of_not_lt short)]
        exact listed key stays

end MicroRosAgent.GraphManager.VanishingNodes

/-! ## A participant removed in between -/

namespace MicroRosAgent.GraphManager.VanishingNodes

open Interleaving

attribute [local instance] referenceRmw

/-- Two participants with one node each. -/
def twoNodes : ReferenceCache :=
  GraphCache.updateParticipantEntities
    ⟨⟨2⟩, [{ nodeNamespace := ['/'], nodeName := "stays".toList }]⟩
    (GraphCache.updateParticipantEntities
      ⟨⟨1⟩, [{ nodeNamespace := ['/'], nodeName := "leaves".toList }]⟩ GraphCache.empty)

/-- The first participant goes after its node has been listed. -/
def removedAfterListing : List Event := [.query, .mutate (.removeParticipant ⟨1⟩), .query]

theorem all_listed_iff_twoNodes : ∃ final graph,
    (system ReferenceCache).exec ⟨twoNodes, publishMicrorosGraph⟩ removedAfterListing = some final ∧
      final.program = .done graph ∧
      ((∀ key, Stays twoNodes removedAfterListing key → key ∈ graph.nodes.map NodeMessage.key) ↔
        ∀ listing caches,
          queried ⟨twoNodes, publishMicrorosGraph⟩ removedAfterListing = listing :: caches →
          ∀ position, Fails (GraphCache.getNodeNames listing) caches position →
            ∀ key, Stays twoNodes removedAfterListing key →
              key ∈ (GraphCache.getNodeNames listing).take position) :=
  ⟨_, ⟨[]⟩, rfl, rfl, all_listed_iff twoNodes removedAfterListing _ ⟨[]⟩ rfl rfl⟩

/-- The query for the node that left fails, and the node that stays is not in the message. -/
theorem staying_node_is_lost : ∃ final graph,
    (system ReferenceCache).exec ⟨twoNodes, publishMicrorosGraph⟩ removedAfterListing = some final ∧
      final.program = .done graph ∧
      ∃ key, Stays twoNodes removedAfterListing key ∧ key ∉ graph.nodes.map NodeMessage.key := by
  have before : Present twoNodes ("stays".toList, ['/']) :=
    ⟨⟨2⟩, _, rfl, _, List.mem_cons_self, rfl⟩
  have after : Present (GraphCache.removeParticipant ⟨1⟩ twoNodes) ("stays".toList, ['/']) :=
    ⟨⟨2⟩, _, rfl, _, List.mem_cons_self, rfl⟩
  have stays : Stays twoNodes removedAfterListing ("stays".toList, ['/']) := by
    refine ⟨before, ?_⟩
    intro listed step
    cases step
    refine ⟨before, ?_⟩
    intro removed step
    cases step
    refine ⟨after, ?_⟩
    intro failed step
    cases step
    exact after
  exact ⟨_, ⟨[]⟩, rfl, rfl, _, stays, List.not_mem_nil⟩

end MicroRosAgent.GraphManager.VanishingNodes
