import MicroRosAgent.Agent.Concurrency
import MicroRosAgent.Agent.Lifecycle
import MicroRosAgent.Interleaving.Ownership

/-! # The discovery writers

`micro_ros_graph_datawriters_` is a map of raw pointers: `add_participant` creates a
datawriter for a participant, `associate_entity` writes through it, `remove_participant`
deletes it.  Callbacks of different participants run at the same time; that their single
accesses to the map do not overlap is an assumption, for no lock protects it.

A participant's thread moves the participant through `Phase`; `protocol` says which call is
allowed in which phase, and each callback follows it.  `Ledger` records what was done to
each datawriter, and `Coherent` ties the phases to the manager and to the ledger
(`coherent_handle`).
-/

namespace MicroRosAgent.Agent.Concurrency

open Interleaving GraphManager

/-! ## What is done to a datawriter -/

inductive Use where
  | create
  | write (info : ParticipantEntitiesInfo)
  | delete
  deriving DecidableEq

variable {Cache : Type}

/-- The datawriter a call works on, and what it does to it. -/
def useOf (manager : Manager Cache) : Call → Option (Nat × Use)
  | .createDatawriter => some (manager.created, .create)
  | .write datawriter info => some (datawriter, .write info)
  | .deleteDatawriter datawriter => some (datawriter, .delete)
  | _ => none

def usesOf (datawriter : Nat) (trace : List (Nat × Use)) : List Use :=
  (trace.filter fun entry => entry.1 = datawriter).map Prod.snd

theorem usesOf_append (datawriter : Nat) (first second : List (Nat × Use)) :
    usesOf datawriter (first ++ second) = usesOf datawriter first ++ usesOf datawriter second := by
  simp [usesOf]

theorem usesOf_other {datawriter other : Nat} (use : Use) (different : datawriter ≠ other) :
    usesOf datawriter [(other, use)] = [] := by
  simp [usesOf, Ne.symm different]

theorem usesOf_self (datawriter : Nat) (use : Use) : usesOf datawriter [(datawriter, use)] = [use] := by
  simp [usesOf]

variable [Rmw]

/-- A participant that gets a node and a datawriter. -/
def GetsWriter (events : List Event) (participant : DomainParticipant) : Prop :=
  Event.start (.createParticipant participant) ∈ events ∧ ¬ Root participant

/-! ## The phases of a participant -/

inductive Owner where
  | participant (handle : Nat)
  | listener (index : Nat)
  deriving DecidableEq

inductive Phase where
  | absent
  | starting (participant : DomainParticipant)
  | created (participant : DomainParticipant) (datawriter : Nat)
  | announced (participant : DomainParticipant) (datawriter : Nat)
  -- the datawriter is gone and its entry still there
  | deleted (participant : DomainParticipant) (datawriter : Nat)

namespace Phase

/-- The entry in `micro_ros_graph_datawriters_`. -/
def entry : Phase → Option Nat
  | announced _ datawriter | deleted _ datawriter => some datawriter
  | _ => none

/-- The datawriter that exists, and whose it is. -/
def holds : Phase → Option (DomainParticipant × Nat)
  | created participant datawriter | announced participant datawriter =>
      some (participant, datawriter)
  | _ => none

def permits (owner : Owner) (phase : Phase) : Call → Prop
  | .cache _ | .takeNextSample => True
  | .findDatawriter participant => owner = .participant participant.handle
  | .createDatawriter => ∃ participant, owner = .participant participant.handle ∧
      phase = starting participant
  | .insertDatawriter participant datawriter =>
      owner = .participant participant.handle ∧ phase = created participant datawriter
  | .write datawriter info => ∃ participant, owner = .participant participant.handle ∧
      phase = announced participant datawriter ∧ info.gid = participant.gid
  | .deleteDatawriter datawriter => ∃ participant, owner = .participant participant.handle ∧
      phase = announced participant datawriter
  | .eraseDatawriter participant =>
      owner = .participant participant.handle ∧ ∃ datawriter, phase = deleted participant datawriter

def promises (phase : Phase) : (operation : Call) → operation.Result → Prop
  | .cache (.addNode gid ..), message => message.gid = gid
  | .cache (.associate _ _ gid ..), message => message.gid = gid
  | .findDatawriter _, found => found = phase.entry
  | _, _ => True

def next (phase : Phase) : (operation : Call) → operation.Result → Phase
  | .createDatawriter, datawriter =>
      match phase with
      | starting participant => created participant datawriter
      | other => other
  | .insertDatawriter participant datawriter, _ => announced participant datawriter
  | .deleteDatawriter _, _ =>
      match phase with
      | announced participant datawriter => deleted participant datawriter
      | other => other
  | .eraseDatawriter _, _ => absent
  | _, _ => phase

end Phase

def protocol (owner : Owner) : Protocol Call Call.Result Phase :=
  ⟨Phase.permits owner, Phase.promises, Phase.next⟩

/-- The phase of an owner none of whose threads is running. -/
inductive Rests (live : List DomainParticipant) : Owner → Phase → Prop
  | announced (participant : DomainParticipant) (datawriter : Nat) (isLive : participant ∈ live)
      (notRoot : ¬ Root participant) :
      Rests live (.participant participant.handle) (.announced participant datawriter)
  | absent (handle : Nat) (onlyRoot : ∀ participant ∈ live, participant.handle = handle →
      Root participant) : Rests live (.participant handle) .absent
  | listener (index : Nat) : Rests live (.listener index) .absent

/-! ## The callbacks follow the protocol -/

section
variable {owner : Owner} {phase : Phase}

/-- A call of a mutator leaves the phase. -/
theorem follows_mutate (mutator : Mutator) :
    (mutate mutator).Follows (protocol owner)
      (fun result reached => reached = phase ∧ phase.promises (.cache mutator) result) phase := by
  refine ⟨trivial, ?_⟩
  intro result promised
  cases mutator <;> exact ⟨rfl, promised⟩

theorem follows_writeUnchecked {participant : DomainParticipant} (datawriter : Nat)
    {info : ParticipantEntitiesInfo} (own : info.gid = participant.gid) :
    (writeUnchecked participant info).Follows (protocol (.participant participant.handle))
      (fun _ reached => reached = .announced participant datawriter)
      (.announced participant datawriter) := by
  refine ⟨rfl, ?_⟩
  intro found promised
  have isEntry : found = some datawriter := promised
  subst isEntry
  exact ⟨⟨participant, rfl, rfl, own⟩, fun _ _ => rfl⟩

theorem follows_createEndpoint (participant : DomainParticipant) (datawriter : Nat) (isReader : Bool)
    (endpoint : Endpoint) :
    (createEndpoint participant isReader endpoint).Follows
      (protocol (.participant participant.handle))
      (fun _ reached => reached = .announced participant datawriter)
      (.announced participant datawriter) := by
  unfold createEndpoint
  refine (follows_mutate _).bind ?_
  rintro _ _ ⟨rfl, _⟩
  rw [associateEntity_eq]
  refine (follows_mutate _).bind ?_
  rintro info _ ⟨rfl, own⟩
  exact follows_writeUnchecked datawriter own

theorem follows_createEndpoints (participant : DomainParticipant) (datawriter : Nat)
    (created : List (Bool × Endpoint)) :
    (createEndpoints participant created).Follows (protocol (.participant participant.handle))
      (fun _ reached => reached = .announced participant datawriter)
      (.announced participant datawriter) := by
  induction created with
  | nil => exact rfl
  | cons entity rest ih =>
    refine (follows_createEndpoint participant datawriter entity.1 entity.2).bind ?_
    rintro _ _ rfl
    exact ih

theorem follows_deleteEndpoints (deleted : List (Bool × Endpoint)) :
    (deleteEndpoints deleted).Follows (protocol owner) (fun _ reached => reached = phase) phase := by
  induction deleted with
  | nil => exact rfl
  | cons entity rest ih =>
    refine (follows_mutate _).bind ?_
    rintro _ _ ⟨rfl, _⟩
    exact ih

theorem follows_addParticipant {participant : DomainParticipant} (notRoot : ¬ Root participant) :
    (onCreateParticipant participant).Follows (protocol (.participant participant.handle))
      (fun _ reached => ∃ datawriter, reached = .announced participant datawriter)
      (.starting participant) := by
  unfold onCreateParticipant addParticipant
  refine (follows_mutate _).bind ?_
  rintro _ _ ⟨rfl, _⟩
  rw [if_pos ⟨notRoot, rfl⟩]
  refine (follows_mutate _).bind ?_
  rintro info _ ⟨rfl, own⟩
  -- the map has no entry yet
  refine ⟨rfl, ?_⟩
  intro found promised
  have isEntry : found = none := promised
  subst isEntry
  refine ⟨⟨participant, rfl, rfl⟩, ?_⟩
  intro datawriter _
  refine ⟨⟨rfl, rfl⟩, ?_⟩
  intro _ _
  exact ⟨⟨participant, rfl, rfl, own⟩, fun _ _ => ⟨datawriter, rfl⟩⟩

theorem follows_addParticipant_root {participant : DomainParticipant} (root : Root participant) :
    (onCreateParticipant participant).Follows (protocol owner) (fun _ reached => reached = phase)
      phase := by
  unfold onCreateParticipant addParticipant
  refine (follows_mutate _).bind ?_
  rintro _ _ ⟨rfl, _⟩
  rw [if_neg fun named => named.1 root]
  exact rfl

theorem follows_removeParticipant (participant : DomainParticipant) (datawriter : Nat) :
    (onDeleteParticipant participant).Follows (protocol (.participant participant.handle))
      (fun _ reached => reached = .absent) (.announced participant datawriter) := by
  unfold onDeleteParticipant removeParticipant
  refine (follows_mutate _).bind ?_
  rintro _ _ ⟨rfl, _⟩
  rw [if_pos rfl]
  refine ⟨rfl, ?_⟩
  intro found promised
  have isEntry : found = some datawriter := promised
  subst isEntry
  refine ⟨⟨participant, rfl, rfl, rfl⟩, ?_⟩
  intro _ _
  refine ⟨⟨participant, rfl, rfl⟩, ?_⟩
  intro _ _
  exact ⟨⟨rfl, datawriter, rfl⟩, fun _ _ => rfl⟩

theorem follows_onParticipantDiscovery (reason : ParticipantDiscoveryStatus) (guid : Guid)
    (userData : List UInt8) :
    (onParticipantDiscovery reason guid userData).Follows (protocol owner)
      (fun _ reached => reached = phase) phase := by
  cases reason with
  | discovered =>
    unfold onParticipantDiscovery
    dsimp only
    split
    · exact rfl
    · exact (follows_mutate _).mono fun _ _ reached => reached.1
  | removed | dropped => exact (follows_mutate _).mono fun _ _ reached => reached.1
  | changedQos | ignored => exact rfl

/-- A run of the reader's listener touches no datawriter. -/
theorem follows_onDataAvailable :
    onDataAvailable.Follows (protocol owner) (fun _ reached => reached = phase) phase := by
  rw [onDataAvailable_eq]
  refine ⟨trivial, ?_⟩
  intro taken _
  show (afterTake taken).Follows _ _ phase
  obtain ⟨sample, _, _, applies⟩ | ⟨_, returns⟩ := afterTake_cases taken
  · rw [applies]
    exact (follows_mutate _).mono fun _ _ reached => reached.1
  · rw [returns]
    exact rfl

theorem follows_onEndpointDiscovery (isReader : Bool) (reason : EndpointDiscoveryStatus)
    (info : BuiltinTopicData) :
    (onEndpointDiscovery isReader reason info).Follows (protocol owner)
      (fun _ reached => reached = phase) phase := by
  cases reason with
  | discovered =>
    rw [onEndpointDiscovery_discovered]
    exact (follows_mutate _).mono fun _ _ reached => reached.1
  | removed =>
    rw [onEndpointDiscovery_removal isReader (Or.inl rfl)]
    exact (follows_mutate _).mono fun _ _ reached => reached.1
  | ignored =>
    rw [onEndpointDiscovery_removal isReader (Or.inr rfl)]
    exact (follows_mutate _).mono fun _ _ reached => reached.1
  | changedQos =>
    rw [onEndpointDiscovery_changedQos]
    exact rfl

end

/-! ## The ledger of the datawriters -/

/-- The datawriters created so far, each with its participant, and what was done to them. -/
structure Ledger (belongs : List DomainParticipant) (holds : Nat → Option (DomainParticipant × Nat))
    (trace : List (Nat × Use)) : Prop where
  held : ∀ handle participant datawriter, holds handle = some (participant, datawriter) →
    participant.handle = handle ∧ belongs[datawriter]? = some participant
  unborn : ∀ datawriter, belongs.length ≤ datawriter → usesOf datawriter trace = []
  born : ∀ datawriter participant, belongs[datawriter]? = some participant →
    ∃ infos : List ParticipantEntitiesInfo, (∀ info ∈ infos, info.gid = participant.gid) ∧
      usesOf datawriter trace = .create :: infos.map .write ++
        if holds participant.handle = some (participant, datawriter) then [] else [.delete]

namespace Ledger

variable {belongs : List DomainParticipant} {holds : Nat → Option (DomainParticipant × Nat)}
  {trace : List (Nat × Use)} {participant : DomainParticipant} {datawriter : Nat}

theorem create (ledger : Ledger belongs holds trace) (free : holds participant.handle = none) :
    Ledger (belongs ++ [participant])
      (Function.update holds participant.handle (some (participant, belongs.length)))
      (trace ++ [(belongs.length, .create)]) := by
  have last : (belongs ++ [participant])[belongs.length]? = some participant :=
    List.getElem?_concat_length ..
  refine ⟨?_, ?_, ?_⟩
  · intro handle holder held found
    by_cases same : handle = participant.handle
    · subst same
      rw [Function.update_self] at found
      cases found
      exact ⟨rfl, last⟩
    · rw [Function.update_of_ne same] at found
      obtain ⟨own, known⟩ := ledger.held handle holder held found
      refine ⟨own, ?_⟩
      rw [List.getElem?_append_left (List.getElem?_eq_some_iff.mp known).1]
      exact known
  · intro other beyond
    rw [List.length_append, List.length_singleton] at beyond
    rw [usesOf_append, ledger.unborn other (by omega), usesOf_other _ (by omega), List.append_nil]
  · intro other holder known
    by_cases new : other = belongs.length
    · subst new
      cases last.symm.trans known
      refine ⟨[], by simp, ?_⟩
      rw [usesOf_append, ledger.unborn _ (Nat.le_refl _), usesOf_self, Function.update_self,
        if_pos rfl]
      rfl
    · have old : other < belongs.length := by
        have bound := (List.getElem?_eq_some_iff.mp known).1
        rw [List.length_append, List.length_singleton] at bound
        omega
      rw [List.getElem?_append_left old] at known
      obtain ⟨infos, own, uses⟩ := ledger.born other holder known
      refine ⟨infos, own, ?_⟩
      rw [usesOf_append, usesOf_other _ new, List.append_nil, uses]
      by_cases same : holder.handle = participant.handle
      · rw [same, free, Function.update_self, if_neg nofun, if_neg]
        intro held
        cases held
        exact new rfl
      · rw [Function.update_of_ne same]

theorem unchanged (ledger : Ledger belongs holds trace) {handle : Nat}
    {held : Option (DomainParticipant × Nat)} (same : holds handle = held) :
    Ledger belongs (Function.update holds handle held) (trace ++ []) := by
  rw [← same, Function.update_eq_self, List.append_nil]
  exact ledger

theorem write (ledger : Ledger belongs holds trace)
    (held : holds participant.handle = some (participant, datawriter))
    {info : ParticipantEntitiesInfo} (own : info.gid = participant.gid) :
    Ledger belongs holds (trace ++ [(datawriter, .write info)]) := by
  have known := (ledger.held _ _ _ held).2
  refine ⟨ledger.held, ?_, ?_⟩
  · intro other beyond
    have different : other ≠ datawriter := by
      have bound := (List.getElem?_eq_some_iff.mp known).1
      omega
    rw [usesOf_append, ledger.unborn other beyond, usesOf_other _ different, List.append_nil]
  · intro other holder belongsTo
    obtain ⟨infos, gids, uses⟩ := ledger.born other holder belongsTo
    by_cases same : other = datawriter
    · subst same
      cases known.symm.trans belongsTo
      rw [if_pos held, List.append_nil] at uses
      refine ⟨infos ++ [info], ?_, ?_⟩
      · intro sent member
        obtain old | new := List.mem_append.mp member
        · exact gids sent old
        · rw [List.mem_singleton.mp new]
          exact own
      · rw [usesOf_append, uses, usesOf_self, if_pos held]
        simp
    · refine ⟨infos, gids, ?_⟩
      rw [usesOf_append, usesOf_other _ same, List.append_nil]
      exact uses

theorem delete (ledger : Ledger belongs holds trace)
    (held : holds participant.handle = some (participant, datawriter)) :
    Ledger belongs (Function.update holds participant.handle none)
      (trace ++ [(datawriter, .delete)]) := by
  have known := (ledger.held _ _ _ held).2
  refine ⟨?_, ?_, ?_⟩
  · intro handle holder other found
    by_cases same : handle = participant.handle
    · subst same
      rw [Function.update_self] at found
      cases found
    · rw [Function.update_of_ne same] at found
      exact ledger.held handle holder other found
  · intro other beyond
    have different : other ≠ datawriter := by
      have bound := (List.getElem?_eq_some_iff.mp known).1
      omega
    rw [usesOf_append, ledger.unborn other beyond, usesOf_other _ different, List.append_nil]
  · intro other holder belongsTo
    obtain ⟨infos, gids, uses⟩ := ledger.born other holder belongsTo
    refine ⟨infos, gids, ?_⟩
    by_cases same : other = datawriter
    · subst same
      cases known.symm.trans belongsTo
      rw [if_pos held, List.append_nil] at uses
      rw [usesOf_append, uses, usesOf_self, Function.update_self, if_neg nofun]
    · rw [usesOf_append, usesOf_other _ same, List.append_nil, uses]
      by_cases handles : holder.handle = participant.handle
      · have elsewhere : some (participant, datawriter) ≠ some (holder, other) := by
          intro equal
          cases equal
          exact same rfl
        rw [handles, held, Function.update_self, if_neg elsewhere, if_neg nofun]
      · rw [Function.update_of_ne handles]

end Ledger

/-! ## The invariant -/

/-- The manager, and the ledger of the run, are as the phases say. -/
structure Coherent (events : List Event) (belongs : List DomainParticipant) (phase : Owner → Phase)
    (manager : Manager Cache) (trace : List (Nat × Use)) : Prop where
  count : manager.created = belongs.length
  entries : ∀ handle, manager.datawriters handle = (phase (.participant handle)).entry
  ledger : Ledger belongs (fun handle => (phase (.participant handle)).holds) trace
  introduced : ∀ participant ∈ belongs, GetsWriter events participant
  starts : ∀ handle participant, phase (.participant handle) = .starting participant →
    participant.handle = handle ∧ GetsWriter events participant ∧
      ∀ other ∈ belongs, other.guid ≠ participant.guid
  apart : ∀ first second one another, phase (.participant first) = .starting one →
    phase (.participant second) = .starting another → one.guid = another.guid → first = second
  once : (belongs.map DomainParticipant.guid).Nodup

section
variable {events : List Event} {belongs : List DomainParticipant} {phase : Owner → Phase}
  {trace : List (Nat × Use)}

omit [Rmw] in
/-- What is seen of the phases, when that of one participant is replaced. -/
theorem update_seen {Seen : Type} (seen : Phase → Seen) (handle : Nat) (reached : Phase) :
    (fun other => seen (Function.update phase (.participant handle) reached (.participant other))) =
      Function.update (fun other => seen (phase (.participant other))) handle (seen reached) := by
  funext other
  by_cases same : other = handle
  · subst same
    rw [Function.update_self, Function.update_self]
  · rw [Function.update_of_ne (fun equal => same (Owner.participant.inj equal)),
      Function.update_of_ne same]

omit [Rmw] in
/-- A participant that starts after the replacement has started before. -/
theorem starting_of_update {owner : Owner} {reached : Phase}
    (notStart : ∀ participant, reached ≠ .starting participant) {handle : Nat}
    {participant : DomainParticipant}
    (starts : Function.update phase owner reached (.participant handle) = .starting participant) :
    phase (.participant handle) = .starting participant := by
  by_cases same : .participant handle = owner
  · subst same
    rw [Function.update_self] at starts
    exact absurd starts (notStart participant)
  · rwa [Function.update_of_ne same] at starts

/-- Only the datawriters of the manager and their count matter. -/
theorem Coherent.manager {manager after : Manager Cache}
    (coherent : Coherent events belongs phase manager trace)
    (count : after.created = manager.created) (entries : after.datawriters = manager.datawriters) :
    Coherent events belongs phase after trace :=
  { coherent with
    count := count.trans coherent.count
    entries := fun handle => (congrFun entries handle).trans (coherent.entries handle) }

/-- The phase of a participant moves on, and the ledger with it. -/
theorem Coherent.move {manager after : Manager Cache} {later : List (Nat × Use)} {handle : Nat}
    {reached : Phase} (coherent : Coherent events belongs phase manager trace)
    (notStart : ∀ participant, reached ≠ .starting participant)
    (count : after.created = manager.created)
    (entries : after.datawriters = Function.update manager.datawriters handle reached.entry)
    (ledger : Ledger belongs
      (Function.update (fun other => (phase (.participant other)).holds) handle reached.holds)
      later) :
    Coherent events belongs (Function.update phase (.participant handle) reached) after later := by
  have before : manager.datawriters = fun other => (phase (.participant other)).entry :=
    funext coherent.entries
  refine ⟨count.trans coherent.count, ?_, ?_, coherent.introduced, ?_, ?_, coherent.once⟩
  · intro other
    rw [entries, before]
    exact (congrFun (update_seen Phase.entry handle reached) other).symm
  · rw [update_seen]
    exact ledger
  · intro other participant starts
    exact coherent.starts other participant (starting_of_update notStart starts)
  · intro first second one another firstStarts secondStarts
    exact coherent.apart first second one another (starting_of_update notStart firstStarts)
      (starting_of_update notStart secondStarts)

/-- The participant that starts creates its datawriter. -/
theorem Coherent.create {manager : Manager Cache} {participant : DomainParticipant}
    (coherent : Coherent events belongs phase manager trace)
    (starts : phase (.participant participant.handle) = .starting participant) :
    Coherent events (belongs ++ [participant])
      (Function.update phase (.participant participant.handle)
        (.created participant manager.created))
      { manager with created := manager.created + 1 } (trace ++ [(manager.created, .create)]) := by
  obtain ⟨_, introduced, fresh⟩ := coherent.starts _ participant starts
  have notStart : ∀ other, Phase.created participant manager.created ≠ .starting other := nofun
  refine ⟨?_, ?_, ?_, ?_, ?_, ?_, ?_⟩
  · rw [List.length_append, List.length_singleton, coherent.count]
  · intro handle
    by_cases same : handle = participant.handle
    · subst same
      rw [Function.update_self]
      exact (coherent.entries _).trans (by rw [starts]; rfl)
    · rw [Function.update_of_ne fun equal => same (Owner.participant.inj equal)]
      exact coherent.entries handle
  · rw [update_seen, coherent.count]
    exact coherent.ledger.create (by rw [starts]; rfl)
  · intro other member
    obtain old | new := List.mem_append.mp member
    · exact coherent.introduced other old
    · rw [List.mem_singleton.mp new]
      exact introduced
  · intro handle other starting
    have before := starting_of_update notStart starting
    obtain ⟨own, gets, others⟩ := coherent.starts handle other before
    refine ⟨own, gets, ?_⟩
    intro known member equal
    obtain old | new := List.mem_append.mp member
    · exact others known old equal
    · rw [List.mem_singleton.mp new] at equal
      have same := coherent.apart _ _ participant other starts before equal
      rw [← same, Function.update_self] at starting
      exact notStart other starting
  · intro first second one another firstStarts secondStarts
    exact coherent.apart first second one another (starting_of_update notStart firstStarts)
      (starting_of_update notStart secondStarts)
  · rw [List.map_append, List.nodup_append]
    refine ⟨coherent.once, by simp, ?_⟩
    intro known member guid new
    obtain ⟨other, old, rfl⟩ := List.mem_map.mp member
    rw [List.map_singleton, List.mem_singleton] at new
    rw [new]
    exact fresh other old

variable [GraphCache Cache] [LawfulMutators Cache] [LawfulPreconditions Cache]

omit [Rmw] in
/-- A mutator returns what the phases promise. -/
theorem promises_perform {mutator : Mutator} {cache after : Cache} {result : mutator.Result}
    (phase : Phase) (performed : mutator.perform cache = some (result, after)) :
    phase.promises (.cache mutator) result := by
  cases mutator with
  | addNode gid name nodeNamespace =>
    obtain ⟨nodes, _, rfl, _⟩ := perform_addNode_of_some performed
    exact rfl
  | associate isReader entityGid gid name nodeNamespace =>
    obtain ⟨nodes, _, rfl, _⟩ := perform_associate_of_some performed
    exact rfl
  | addParticipant | removeParticipant | addEntity | removeEntity | updateParticipantEntities =>
    trivial

/-- A permitted call returns what is promised, and the next phase is the right one. -/
theorem coherent_handle {manager after : Manager Cache} {owner : Owner} {operation : Call}
    {result : operation.Result} (coherent : Coherent events belongs phase manager trace)
    (permitted : (phase owner).permits owner operation)
    (handled : handle operation manager = some (result, after)) :
    (phase owner).promises operation result ∧ ∃ belongs',
      Coherent events belongs'
        (Function.update phase owner ((phase owner).next operation result)) after
        (trace ++ (useOf manager operation).toList) := by
  -- a call that changes neither the map nor a datawriter
  have still : ∀ {changed : Manager Cache}, changed.created = manager.created →
      changed.datawriters = manager.datawriters →
      Coherent events belongs (Function.update phase owner (phase owner)) changed (trace ++ []) := by
    intro changed count entries
    rw [Function.update_eq_self, List.append_nil]
    exact coherent.manager count entries
  cases operation with
  | cache mutator =>
    obtain ⟨⟨answer, cache⟩, performed, answered⟩ := Option.map_eq_some_iff.mp handled
    cases answered
    exact ⟨promises_perform _ performed, belongs, still rfl rfl⟩
  | findDatawriter participant =>
    cases handled
    have own : owner = .participant participant.handle := permitted
    subst own
    exact ⟨coherent.entries _, belongs, still rfl rfl⟩
  | createDatawriter =>
    cases handled
    obtain ⟨participant, rfl, starts⟩ := permitted
    refine ⟨trivial, belongs ++ [participant], ?_⟩
    have created := coherent.create starts
    rw [starts]
    exact created
  | insertDatawriter participant datawriter =>
    cases handled
    obtain ⟨rfl, isCreated⟩ := permitted
    refine ⟨trivial, belongs, coherent.move nofun rfl rfl ?_⟩
    exact coherent.ledger.unchanged (by rw [isCreated]; rfl)
  | write datawriter info =>
    cases handled
    obtain ⟨participant, rfl, announced, own⟩ := permitted
    have sent := coherent.ledger.write (by rw [announced]; rfl) own
    refine ⟨trivial, belongs, ?_⟩
    have unmoved : Function.update phase (.participant participant.handle)
        (phase (.participant participant.handle)) = phase := Function.update_eq_self _ _
    show Coherent events belongs (Function.update phase _ (phase _)) _ _
    rw [unmoved]
    exact { coherent with ledger := sent }
  | deleteDatawriter datawriter =>
    cases handled
    obtain ⟨participant, rfl, announced⟩ := permitted
    refine ⟨trivial, belongs, ?_⟩
    rw [announced]
    refine coherent.move nofun rfl ?_ (coherent.ledger.delete ?_)
    · have entry := coherent.entries participant.handle
      rw [announced] at entry
      exact (Function.update_eq_self_iff.mpr entry.symm).symm
    · rw [announced]
      rfl
  | eraseDatawriter participant =>
    cases handled
    obtain ⟨rfl, datawriter, deleted⟩ := permitted
    refine ⟨trivial, belongs, coherent.move nofun rfl rfl ?_⟩
    exact coherent.ledger.unchanged (by rw [deleted]; rfl)
  | takeNextSample =>
    simp only [handle] at handled
    split at handled <;>
    · cases handled
      exact ⟨trivial, belongs, still rfl rfl⟩

end

end MicroRosAgent.Agent.Concurrency
