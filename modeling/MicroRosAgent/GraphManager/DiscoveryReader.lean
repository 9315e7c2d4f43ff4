import MicroRosAgent.GraphManager.Operations
import MicroRosAgent.GraphCache.Reference
import MicroRosAgent.Interleaving.Mailbox

/-! # The reader of `ros_discovery_info`

Every participant publishes its announcements on one topic, and the manager has one reader
for all of them, whose history keeps the last sample: a sample that arrives before the
listener has taken the one before it replaces it, whoever published it.  The listener takes
one sample in each run of `on_data_available` and applies it in a second call.

The history is a `Mailbox` (`matched_step`), and `announced_iff` says when the last
announcement of every participant is the one that the cache has in the end.
-/

namespace MicroRosAgent.GraphManager.DiscoveryReader

open Interleaving

/-- A sample with its number among all that are published. -/
structure Publication where
  number : Nat
  sample : Sample
  deriving DecidableEq

def Publication.gid (publication : Publication) : Gid := publication.sample.info.gid

def Publication.alive (publication : Publication) : Bool := publication.sample.alive

structure State (Cache : Type) where
  -- the manager and the runs of `on_data_available`
  pool : Pool Call Call.Result (Manager Cache)
  published : List Publication := []
  -- what each participant has published and has not arrived yet, oldest first
  inFlight : Gid → List Publication := fun _ => []
  -- a run has started since the last arrival
  notified : Bool := true
  -- which publications have arrived, and what has become of each
  mailbox : Mailbox.State Publication := {}

inductive Event where
  | publish (sample : Sample)
  | arrive (gid : Gid)
  | onDataAvailable
  | advance (index : Nat)

variable {Cache : Type}

/-- What a call makes of the publications.  One is applied when `update_participant_entities`
    is called with its sample, and by no other call. -/
def mailboxAfter (state : State Cache) (index : Nat) : Option Call → Mailbox.State Publication
  | some .takeNextSample => state.mailbox.take Publication.alive index
  | some (.cache (.updateParticipantEntities info)) =>
      if (state.mailbox.held index).map (fun held => held.sample.info) = some info then
        state.mailbox.apply index
      else state.mailbox
  | _ => state.mailbox

theorem posted_mailboxAfter (state : State Cache) (index : Nat) (operation : Option Call) :
    (mailboxAfter state index operation).posted = state.mailbox.posted := by
  unfold mailboxAfter
  split
  · rfl
  · split <;> rfl
  · rfl

theorem mailboxAfter_of_held {state : State Cache} {index : Nat} {publication : Publication}
    (holds : state.mailbox.held index = some publication) :
    mailboxAfter state index (some (.cache (.updateParticipantEntities publication.sample.info))) =
      state.mailbox.apply index := by
  simp [mailboxAfter, holds]

variable [GraphCache Cache]

def step (state : State Cache) : Event → Option (State Cache)
  | .publish sample =>
      let publication : Publication := ⟨state.published.length, sample⟩
      some { state with
        published := state.published ++ [publication]
        inFlight := Function.update state.inFlight publication.gid
          (state.inFlight publication.gid ++ [publication]) }
  | .arrive gid =>
      match state.inFlight gid with
      | [] => none
      | publication :: later => some { state with
          pool := { state.pool with shared := state.pool.shared.arrive publication.sample }
          inFlight := Function.update state.inFlight gid later
          notified := false
          mailbox := state.mailbox.post publication }
  | .onDataAvailable => some { state with
      pool := state.pool.spawn onDataAvailable
      notified := true }
  | .advance index =>
      (state.pool.advance handle index).map fun pool => { state with
        pool
        mailbox := mailboxAfter state index (state.pool.nextCall index) }

def system (Cache : Type) [GraphCache Cache] : Lts (State Cache) Event := ⟨step⟩

/-- A manager that has received nothing yet. -/
def start (cache : Cache) : State Cache := { pool := ⟨{ graphCache := cache }, []⟩ }

/-- No arrival and no run is pending. -/
structure Quiescent (state : State Cache) : Prop where
  arrived : ∀ gid, state.inFlight gid = []
  notified : state.notified = true
  returned : state.pool.Idle

def lastOf (publications : List Publication) (gid : Gid) : Option Publication :=
  Mailbox.lastOf Publication.gid publications gid

/-- The participant's last publication, and not one that says it is gone. -/
def LastAlive (published : List Publication) (publication : Publication) : Prop :=
  publication.alive = true ∧ lastOf published publication.gid = some publication

/-- The publication is the last one applied for its participant, and its nodes are the ones
    cached for the participant. -/
def Announced (state : State Cache) (publication : Publication) : Prop :=
  lastOf state.mailbox.applied publication.gid = some publication ∧
    GraphCache.nodes state.pool.shared.graphCache publication.gid =
      some publication.sample.info.nodeEntitiesInfoSeq

/-- The step does not replace in the history what is a participant's last announcement in
    the end, and does not apply an older one of the participant after it. -/
def Keeps (published : List Publication) (state : State Cache) : Event → Prop
  | .arrive _ => ∀ publication, state.mailbox.slot = some publication →
      ¬ LastAlive published publication
  | .advance index => ∀ publication, state.mailbox.held index = some publication →
      ∀ earlier ∈ state.mailbox.applied, earlier.gid = publication.gid → ¬ LastAlive published earlier
  | .publish _ | .onDataAvailable => True

/-! ## The threads -/

/-- A run of `on_data_available` and what it has taken from the history. -/
inductive RunAt : ManagerProgram Unit → Option Publication → Prop
  | taking : RunAt onDataAvailable none
  | applying (publication : Publication) :
      RunAt (mutate (.updateParticipantEntities publication.sample.info)) (some publication)
  | returned : RunAt (.done ()) none

/-- The mailbox tells what the manager's history and the threads hold. -/
structure Related (state : State Cache) : Prop where
  history : state.pool.shared.history = (state.mailbox.slot.map Publication.sample).toList
  threads : Pool.Holding RunAt state.pool.threads state.mailbox.held
  -- a sample in the history is going to be taken
  wanted : state.mailbox.slot ≠ none → state.notified = true →
    ∃ thread ∈ state.pool.threads, thread = onDataAvailable

theorem runAt_afterTake (publication : Publication) :
    RunAt (afterTake (some publication.sample)) ((some publication).filter Publication.alive) := by
  cases alive : publication.sample.alive with
  | true =>
    have kept : (some publication).filter Publication.alive = some publication :=
      Option.filter_eq_some_iff.mpr ⟨rfl, alive⟩
    rw [kept, afterTake, if_pos alive]
    exact .applying publication
  | false =>
    have dropped : (some publication).filter Publication.alive = none := by
      rw [Option.filter_eq_none_iff]
      intro _ equal
      cases equal
      simp [Publication.alive, alive]
    rw [dropped, afterTake, if_neg (by simp [alive])]
    exact .returned

/-- All a run can do: find the history empty, take the sample in it, or apply the one it
    has taken. -/
inductive Advance (state after : State Cache) (index : Nat) : Prop
  | nothing (bound : index < state.pool.threads.length) (free : state.mailbox.held index = none)
      (empty : state.mailbox.slot = none)
      (pool : after.pool = ⟨state.pool.shared, state.pool.threads.set index (.done ())⟩)
      (mailbox : after.mailbox = state.mailbox)
  | take (publication : Publication) (bound : index < state.pool.threads.length)
      (free : state.mailbox.held index = none) (waits : state.mailbox.slot = some publication)
      (pool : after.pool = ⟨{ state.pool.shared with history := [] },
        state.pool.threads.set index (afterTake (some publication.sample))⟩)
      (mailbox : after.mailbox = state.mailbox.take Publication.alive index)
  | apply (publication : Publication) (bound : index < state.pool.threads.length)
      (here : state.pool.threads[index]? =
        some (mutate (.updateParticipantEntities publication.sample.info)))
      (holds : state.mailbox.held index = some publication)
      (pool : after.pool = ⟨{ state.pool.shared with
          graphCache := GraphCache.updateParticipantEntities publication.sample.info
            state.pool.shared.graphCache },
        state.pool.threads.set index (.done ())⟩)
      (mailbox : after.mailbox = state.mailbox.apply index)

theorem advance_cases {state after : State Cache} {index : Nat} (related : Related state)
    (stepped : step state (.advance index) = some after) : Advance state after index := by
  obtain ⟨pool, advanced, rfl⟩ := Option.map_eq_some_iff.mp stepped
  obtain ⟨operation, next, result, shared, here, handled, rfl⟩ := Pool.advance_cases advanced
  have bound := (List.getElem?_eq_some_iff.mp here).1
  rw [Pool.nextCall_of_thread here]
  have runAt := related.threads.stands index _ here
  generalize thread : Program.call operation next = program at runAt
  generalize holds : state.mailbox.held index = held at runAt
  cases runAt with
  | taking =>
    cases thread
    have history := related.history
    cases slot : state.mailbox.slot with
    | none =>
      simp only [slot, Option.map_none, Option.toList_none] at history
      simp only [handle, history] at handled
      cases handled
      exact .nothing bound holds slot rfl (Mailbox.take_of_empty slot holds)
    | some publication =>
      simp only [slot, Option.map_some, Option.toList_some] at history
      simp only [handle, history] at handled
      cases handled
      exact .take publication bound holds slot rfl rfl
  | applying publication =>
    cases thread
    cases handled
    exact .apply publication bound here holds rfl (mailboxAfter_of_held holds)
  | returned => cases thread

/-! ## The simulation -/

abbrev mailboxes : Lts (Mailbox.State Publication) (Mailbox.Event Publication) :=
  Mailbox.system Publication.alive

/-- The mailbox has a run to where the step has led, and loses something exactly if the
    step does. -/
abbrev Matched (published : List Publication) (state : State Cache) (event : Event)
    (after : State Cache) (shadow : Mailbox.State Publication) : Prop :=
  mailboxes.Matches (Mailbox.Keeps Publication.gid (LastAlive published))
    (fun shadowAfter => shadowAfter = after.mailbox ∧ Related after) (Keeps published state event) shadow

theorem matched_arrive {published : List Publication} {state after : State Cache} {gid : Gid}
    (related : Related state) (stepped : step state (.arrive gid) = some after) :
    Matched published state (.arrive gid) after state.mailbox := by
  simp only [step] at stepped
  split at stepped
  · cases stepped
  · rename_i publication later sent
    cases stepped
    refine mailboxes.matches_by_step (.post publication) rfl ⟨rfl, ?_, related.threads, ?_⟩ Iff.rfl
    · rw [arrive_eq]
      rfl
    · intro _ notified
      cases notified

theorem matched_start {published : List Publication} {state after : State Cache}
    (related : Related state) (stepped : step state .onDataAvailable = some after) :
    Matched published state .onDataAvailable after state.mailbox := by
  cases stepped
  refine mailboxes.matches_by_nothing ⟨rfl, related.history, related.threads.spawn .taking, ?_⟩ trivial
  intro _ _
  exact ⟨onDataAvailable, by simp [Pool.spawn], rfl⟩

theorem matched_advance {published : List Publication} {state after : State Cache} {index : Nat}
    (related : Related state) (stepped : step state (.advance index) = some after) :
    Matched published state (.advance index) after state.mailbox := by
  have unheld : state.mailbox.held index = none → Keeps published state (.advance index) := by
    intro free publication holds
    cases free.symm.trans holds
  have sameNotified : after.notified = state.notified := by
    obtain ⟨_, _, rfl⟩ := Option.map_eq_some_iff.mp stepped
    rfl
  cases advance_cases related stepped with
  | nothing bound free empty pool mailbox =>
    refine mailboxes.matches_by_nothing ⟨mailbox.symm, ?_, ?_, ?_⟩ (unheld free)
    · rw [pool, mailbox]
      exact related.history
    · have threads := related.threads.set bound RunAt.returned
      rw [← free, Function.update_eq_self] at threads
      rwa [pool, mailbox]
    · intro waits
      exact absurd (mailbox ▸ empty) waits
  | take publication bound free waits pool mailbox =>
    have taken : Mailbox.step Publication.alive state.mailbox (.take index) = some after.mailbox := by
      simp [Mailbox.step, waits, free, mailbox]
    refine mailboxes.matches_by_step (.take index) taken ⟨rfl, ?_, ?_, ?_⟩
      (iff_of_true (unheld free) trivial)
    · rw [pool, mailbox]
      rfl
    · rw [pool, mailbox]
      refine related.threads.set bound ?_
      rw [waits]
      exact runAt_afterTake publication
    · intro stillWaits
      exact absurd (by rw [mailbox]; rfl) stillWaits
  | apply publication bound here holds pool mailbox =>
    have applied : Mailbox.step Publication.alive state.mailbox (.apply index) = some after.mailbox := by
      simp [Mailbox.step, holds, mailbox]
    refine mailboxes.matches_by_step (.apply index) applied ⟨rfl, ?_, ?_, ?_⟩ Iff.rfl
    · rw [pool, mailbox]
      exact related.history
    · rw [pool, mailbox]
      exact related.threads.set bound .returned
    · rw [mailbox, pool, sameNotified]
      intro waits notified
      obtain ⟨thread, member, taking⟩ := related.wanted waits notified
      obtain ⟨position, found⟩ := List.mem_iff_getElem?.mp member
      have different : position ≠ index := by
        rintro rfl
        rw [found, taking] at here
        cases here
      refine ⟨thread, List.mem_of_getElem? (i := position) ?_, taking⟩
      rwa [List.getElem?_set_ne different.symm]

theorem matched_step (published : List Publication) (state : State Cache) (event : Event)
    (after : State Cache) (shadow : Mailbox.State Publication)
    (related : shadow = state.mailbox ∧ Related state)
    (stepped : (system Cache).step state event = some after) :
    Matched published state event after shadow := by
  obtain ⟨rfl, related⟩ := related
  cases event with
  | publish sample =>
    cases stepped
    exact mailboxes.matches_by_nothing ⟨rfl, related.history, related.threads, related.wanted⟩ trivial
  | arrive gid => exact matched_arrive related stepped
  | onDataAvailable => exact matched_start related stepped
  | advance index => exact matched_advance related stepped

/-! ## Runs -/

/-- Samples arrive in the order in which their participant has published them. -/
structure Delivered (state : State Cache) : Prop where
  numbered : ∀ publication ∈ state.published, publication.number < state.published.length
  distinct : state.published.Nodup
  inOrder : ∀ gid, state.published.filter (fun publication => publication.gid = gid) =
    state.mailbox.posted.filter (fun publication => publication.gid = gid) ++ state.inFlight gid

theorem delivered_publish {state after : State Cache} {sample : Sample} (delivered : Delivered state)
    (stepped : step state (.publish sample) = some after) : Delivered after := by
  cases stepped
  refine ⟨?_, ?_, ?_⟩
  · intro publication member
    rw [List.length_append, List.length_singleton]
    obtain old | new := List.mem_append.mp member
    · have := delivered.numbered publication old
      omega
    · cases List.mem_singleton.mp new
      exact Nat.lt_succ_self _
  · rw [List.nodup_append]
    refine ⟨delivered.distinct, List.nodup_singleton _, ?_⟩
    intro publication old other new same
    cases List.mem_singleton.mp new
    subst same
    exact Nat.lt_irrefl _ (delivered.numbered _ old)
  · intro gid
    by_cases own : sample.info.gid = gid
    · subst own
      have before := delivered.inOrder sample.info.gid
      simp only [Publication.gid] at before
      simp [List.filter_append, before, Publication.gid]
    · have other : gid ≠ sample.info.gid := Ne.symm own
      have before := delivered.inOrder gid
      simp only [Publication.gid] at before
      simp [List.filter_append, before, Publication.gid, own, other]

theorem delivered_arrive {state after : State Cache} {gid : Gid} (delivered : Delivered state)
    (stepped : step state (.arrive gid) = some after) : Delivered after := by
  simp only [step] at stepped
  split at stepped
  · cases stepped
  · rename_i publication later sent
    cases stepped
    refine ⟨delivered.numbered, delivered.distinct, ?_⟩
    have own : publication.gid = gid := by
      have member : publication ∈ state.published.filter fun other => other.gid = gid := by
        rw [delivered.inOrder, sent]
        simp
      simpa using (List.mem_filter.mp member).2
    intro other
    have before := delivered.inOrder other
    by_cases same : other = gid
    · subst same
      simp [Mailbox.State.post, List.filter_append, own, before, sent]
    · have different : gid ≠ other := Ne.symm same
      simp [Mailbox.State.post, List.filter_append, own, before, same, different]

theorem delivered_step {state after : State Cache} {event : Event} (delivered : Delivered state)
    (stepped : step state event = some after) : Delivered after := by
  cases event with
  | publish sample => exact delivered_publish delivered stepped
  | arrive gid => exact delivered_arrive delivered stepped
  | onDataAvailable =>
    cases stepped
    exact ⟨delivered.numbered, delivered.distinct, delivered.inOrder⟩
  | advance index =>
    obtain ⟨pool, advanced, rfl⟩ := Option.map_eq_some_iff.mp stepped
    refine ⟨delivered.numbered, delivered.distinct, ?_⟩
    intro gid
    dsimp only
    rw [posted_mailboxAfter]
    exact delivered.inOrder gid

theorem delivered_run {cache : Cache} {events : List Event} {final : State Cache}
    (reached : (system Cache).exec (start cache) events = some final) : Delivered final := by
  refine (system Cache).exec_invariant (fun _ _ _ => delivered_step) ?_ reached
  exact ⟨fun _ member => absurd member List.not_mem_nil, List.nodup_nil, fun _ => rfl⟩

omit [GraphCache Cache] in
/-- Only what is published can be in flight. -/
theorem Delivered.arrived {state : State Cache} (delivered : Delivered state)
    (arrived : ∀ publication ∈ state.published, state.inFlight publication.gid = []) (gid : Gid) :
    state.inFlight gid = [] := by
  cases sent : state.inFlight gid with
  | nil => rfl
  | cons publication later =>
    have member : publication ∈ state.published.filter fun other => other.gid = gid := by
      rw [delivered.inOrder, sent]
      simp
    obtain ⟨inside, own⟩ := List.mem_filter.mp member
    have nothing := arrived publication inside
    rw [of_decide_eq_true own, sent] at nothing
    exact nothing

omit [GraphCache Cache] in
theorem posted_nodup {state : State Cache} (delivered : Delivered state) :
    state.mailbox.posted.Nodup := by
  rw [List.nodup_iff_count_le_one]
  intro publication
  have sublist : (state.mailbox.posted.filter fun other => other.gid = publication.gid).Sublist
      state.published := by
    have arrived := List.sublist_append_left
      (state.mailbox.posted.filter fun other => other.gid = publication.gid)
      (state.inFlight publication.gid)
    rw [← delivered.inOrder] at arrived
    exact arrived.trans List.filter_sublist
  have once := List.nodup_iff_count_le_one.mp (delivered.distinct.sublist sublist) publication
  rwa [List.count_filter (by simp)] at once

omit [GraphCache Cache] in
theorem related_start (cache : Cache) : Related (start cache) := by
  refine ⟨rfl, ⟨?_, fun _ _ => rfl⟩, fun waits => absurd rfl waits⟩
  intro index thread here
  cases here

omit [GraphCache Cache] in
theorem atRest_of_quiescent {state : State Cache} (related : Related state)
    (quiescent : Quiescent state) : Mailbox.AtRest state.mailbox := by
  constructor
  · by_contra waits
    obtain ⟨thread, member, taking⟩ := related.wanted waits quiescent.notified
    cases taking.symm.trans (quiescent.returned thread member)
  · intro index
    by_cases inside : index < state.pool.threads.length
    · have here := List.getElem?_eq_getElem inside
      have runAt := related.threads.stands index _ here
      rw [quiescent.returned _ (List.mem_of_getElem? here)] at runAt
      generalize holds : state.mailbox.held index = held at runAt
      generalize thread : Program.done () = program at runAt
      cases runAt with
      | taking => rfl
      | applying publication => cases thread
      | returned => rfl
    · exact related.threads.beyond index (Nat.le_of_not_lt inside)

/-! ## The cache -/

/-- The cache has for each participant the nodes of the last sample applied of it. -/
def ShowsLast (cache : Cache) (state : State Cache) : Prop :=
  ∀ gid, GraphCache.nodes state.pool.shared.graphCache gid =
    match lastOf state.mailbox.applied gid with
    | some publication => some publication.sample.info.nodeEntitiesInfoSeq
    | none => GraphCache.nodes cache gid

theorem showsLast_step [LawfulMutators Cache] {cache : Cache} {state after : State Cache}
    {event : Event} (related : Related state) (shows : ShowsLast cache state)
    (stepped : step state event = some after) : ShowsLast cache after := by
  cases event with
  | publish sample =>
    cases stepped
    exact shows
  | onDataAvailable =>
    cases stepped
    exact shows
  | arrive gid =>
    simp only [step] at stepped
    split at stepped
    · cases stepped
    · cases stepped
      exact shows
  | advance index =>
    intro gid
    cases advance_cases related stepped with
    | nothing bound free empty pool mailbox =>
      rw [pool, mailbox]
      exact shows gid
    | take publication bound free waits pool mailbox =>
      rw [pool, mailbox]
      exact shows gid
    | apply publication bound here holds pool mailbox =>
      have updated := LawfulMutators.updateParticipantEntities publication.sample.info
        state.pool.shared.graphCache
      have applied : (state.mailbox.apply index).applied = state.mailbox.applied ++ [publication] := by
        simp [Mailbox.State.apply, holds]
      rw [pool, mailbox, applied, lastOf, Mailbox.lastOf_concat, updated.nodes]
      by_cases own : publication.sample.info.gid = gid
      · subst own
        simp [Publication.gid]
      · rw [if_neg (show publication.gid ≠ gid from own), Function.update_of_ne (Ne.symm own)]
        exact shows gid

theorem showsLast_run [LawfulMutators Cache] (cache : Cache) (events : List Event) {final : State Cache}
    (reached : (system Cache).exec (start cache) events = some final) : ShowsLast cache final := by
  have preserved : ∀ state event after, Related state ∧ ShowsLast cache state →
      (system Cache).step state event = some after → Related after ∧ ShowsLast cache after := by
    intro state event after ⟨related, shows⟩ stepped
    obtain ⟨_, _, _, ⟨_, relatedAfter⟩, _⟩ :=
      matched_step [] state event after state.mailbox ⟨rfl, related⟩ stepped
    exact ⟨relatedAfter, showsLast_step related shows stepped⟩
  exact ((system Cache).exec_invariant preserved ⟨related_start cache, fun _ => rfl⟩ reached).2

theorem announced_of_applied {cache : Cache} {state : State Cache} {publication : Publication}
    (shows : ShowsLast cache state)
    (applied : lastOf state.mailbox.applied publication.gid = some publication) :
    Announced state publication := by
  refine ⟨applied, ?_⟩
  rw [shows publication.gid, applied]

/-! ## What the cache has in the end -/

/-- When nothing is pending, the last announcement of every participant is the last one
applied for it and the one the cache has, if and only if none of them was replaced in the
history or followed by an older one. -/
theorem announced_iff [LawfulMutators Cache] (cache : Cache) (events : List Event)
    {final : State Cache} (reached : (system Cache).exec (start cache) events = some final)
    (quiescent : Quiescent final) :
    (∀ publication, LastAlive final.published publication → Announced final publication) ↔
      (system Cache).Along (Keeps final.published) (start cache) events := by
  obtain ⟨shadowEvents, shadow, ran, ⟨rfl, related⟩, keeps⟩ :=
    Lts.simulation (system Cache) mailboxes (matched_step final.published)
      ⟨rfl, related_start cache⟩ reached
  have delivered := delivered_run reached
  have arrived : ∀ publication, LastAlive final.published publication →
      publication ∈ final.mailbox.posted := by
    intro publication last
    have member := List.mem_of_getLast? last.2
    rw [delivered.inOrder, quiescent.arrived, List.append_nil] at member
    exact (List.mem_filter.mp member).1
  have counted : ∀ publication, LastAlive final.published publication →
      publication.alive = true := fun _ last => last.1
  have decided := Mailbox.lastApplied_iff Publication.gid counted ran (posted_nodup delivered)
    (atRest_of_quiescent related quiescent)
  refine Iff.trans ?_ (decided.trans keeps.symm)
  constructor
  · intro all publication _ last
    exact (all publication last).1
  · intro all publication last
    exact announced_of_applied (showsLast_run cache events reached)
      (all publication (arrived publication last) last)

end MicroRosAgent.GraphManager.DiscoveryReader

/-! ## Two announcements before a take -/

namespace MicroRosAgent.GraphManager.DiscoveryReader

open Interleaving

def sampleOf (gid : Nat) (name : String) : Sample :=
  ⟨⟨⟨gid⟩, [{ nodeNamespace := ['/'], nodeName := name.toList }]⟩, true⟩

/-- Two participants, each with one announcement. -/
def bothPublished : List Event := [.publish (sampleOf 1 "first"), .publish (sampleOf 2 "second")]

/-- Each sample is taken before the next one arrives. -/
def inTurn : List Event :=
  bothPublished ++ [.arrive ⟨1⟩, .onDataAvailable, .advance 0, .arrive ⟨2⟩, .onDataAvailable,
    .advance 1, .advance 1, .advance 0]

/-- The second sample arrives before the first one is taken. -/
def together : List Event :=
  bothPublished ++ [.arrive ⟨1⟩, .arrive ⟨2⟩, .onDataAvailable, .onDataAvailable, .advance 0,
    .advance 0, .advance 1]

theorem quiescent_of {events : List Event} {final : State ReferenceCache}
    (reached : (system ReferenceCache).exec (start GraphCache.empty) events = some final)
    (arrived : ∀ publication ∈ final.published, final.inFlight publication.gid = [])
    (notified : final.notified = true) (threads : final.pool.threads = [.done (), .done ()]) :
    Quiescent final := by
  refine ⟨(delivered_run reached).arrived arrived, notified, ?_⟩
  intro thread member
  rw [threads] at member
  simpa using member

theorem quiescent_inTurn {final : State ReferenceCache}
    (reached : (system ReferenceCache).exec (start GraphCache.empty) inTurn = some final) :
    Quiescent final := by
  have arrived : ∀ publication ∈ final.published, final.inFlight publication.gid = [] := by
    cases reached
    decide
  refine quiescent_of reached arrived ?_ ?_ <;>
  · cases reached
    rfl

theorem quiescent_together {final : State ReferenceCache}
    (reached : (system ReferenceCache).exec (start GraphCache.empty) together = some final) :
    Quiescent final := by
  have arrived : ∀ publication ∈ final.published, final.inFlight publication.gid = [] := by
    cases reached
    decide
  refine quiescent_of reached arrived ?_ ?_ <;>
  · cases reached
    rfl

theorem announced_iff_inTurn : ∃ final,
    (system ReferenceCache).exec (start GraphCache.empty) inTurn = some final ∧ Quiescent final ∧
      ((∀ publication, LastAlive final.published publication → Announced final publication) ↔
        (system ReferenceCache).Along (Keeps final.published) (start GraphCache.empty) inTurn) :=
  ⟨_, rfl, quiescent_inTurn rfl, announced_iff GraphCache.empty inTurn rfl (quiescent_inTurn rfl)⟩

/-- The announcement of the first participant is replaced before it is taken. -/
theorem announcement_is_dropped : ∃ final,
    (system ReferenceCache).exec (start GraphCache.empty) together = some final ∧ Quiescent final ∧
      ¬ ∀ publication, LastAlive final.published publication → Announced final publication := by
  refine ⟨_, rfl, quiescent_together rfl, ?_⟩
  intro announced
  have first := announced ⟨0, sampleOf 1 "first"⟩ ⟨rfl, rfl⟩
  exact absurd first.2 (by decide)

end MicroRosAgent.GraphManager.DiscoveryReader
