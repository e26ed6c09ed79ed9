import Wisp.BrokerTurn

/-! The two threads that meet when a link is opened. The broker thread changes the
interest under one lock and then tells the links in the table under another; the
thread in `addPeer` reads the interest under the first and enters the new link under
the second. Each locked section is one step; the registry is the broker thread's own. -/
namespace Wisp

open Transition EditLog

namespace Interest

/-- What a section that left this interest has still to push. -/
inductive Update (interest : Interest) : List Control → Prop
  | none : Update interest []
  | add (topic : Str) : Update interest [.subscribe topic]
  | drop {topic : Str} (propagatable : isPropagatableTopic topic = true) (gone : topic ∉ interest.topics) :
      Update interest [.unsubscribe topic]
  | narrow (narrow : interest.wide = false) :
      Update interest (.unsubscribe Keys.wildcardTopic :: interest.topics.map .subscribe)

theorem noteTopicSubscribed_update (topic : Str) (interest : Interest) :
    Update (interest.noteTopicSubscribed topic).1 (interest.noteTopicSubscribed topic).2 := by
  unfold noteTopicSubscribed
  split_ifs
  · exact .none
  · exact .add _
  · exact .none
  · exact .add _
  · exact .none

theorem noteTopicUnsubscribed_update (topic : Str) (interest : Interest) :
    Update (interest.noteTopicUnsubscribed topic).1 (interest.noteTopicUnsubscribed topic).2 := by
  unfold noteTopicUnsubscribed
  split_ifs with wild held full propagatable absent
  · exact .none
  · exact .narrow (by simpa [wide] using full)
  · exact .none
  · exact .none
  · exact .drop propagatable (by simp [erase,interest.distinct.mem_erase_iff])
  · exact .none

theorem noteMeshInterestChange_update (topic : Str) (before now : Bool) (interest : Interest) :
    Update (interest.noteMeshInterestChange topic before now).1 (interest.noteMeshInterestChange topic before now).2 := by
  unfold noteMeshInterestChange
  split_ifs
  · exact .none
  · exact noteTopicSubscribed_update topic interest
  · exact noteTopicUnsubscribed_update topic interest

/-- A link that holds this set at its remote gets everything wanted. -/
def Covered (interest : Interest) (held : Finset Str) : Prop :=
  Keys.wildcardTopic ∈ held ∨ interest.wide = false ∧ ∀ topic ∈ interest.topics, topic ∈ held

variable {interest : Interest} {held : Finset Str}

theorem Covered.subscribed (covered : Covered interest held) (topic : Str) :
    Covered (interest.noteTopicSubscribed topic).1
      (replay held (Control.edits (interest.noteTopicSubscribed topic).2)) := by
  unfold noteTopicSubscribed
  split_ifs with wild already propagatable known
  · exact covered
  · exact .inl (Finset.mem_insert_self _ _)
  · exact covered
  · dsimp only
    split
    · exact .inl (Finset.mem_insert_self _ _)
    next unsaturated =>
      refine covered.imp (Finset.mem_insert_of_mem ·) ?_
      rintro ⟨narrow,topics⟩
      refine ⟨?_,?_⟩
      · simp only [wide,Bool.or_eq_false_iff] at narrow ⊢
        exact ⟨Bool.eq_false_iff.mpr unsaturated,narrow.2⟩
      · rintro t (_ | ⟨_,listed⟩)
        · exact Finset.mem_insert_self _ _
        · exact Finset.mem_insert_of_mem (topics t listed)
  · exact covered

/-- After an UNSUBSCRIBE of the wildcard the topics follow one by one. -/
theorem covered_narrowed (held : Finset Str) (narrow : interest.wide = false) :
    Covered interest (replay held (Control.edits (.unsubscribe Keys.wildcardTopic :: interest.topics.map .subscribe))) := by
  refine .inr ⟨narrow,fun topic listed => ?_⟩
  rw [Control.edits_unsubscribe,Control.edits_subscribes,replay_cons,replay_adds]
  exact Finset.mem_union_right _ (List.mem_toFinset.mpr listed)

/-- An UNSUBSCRIBE of a topic takes nothing that is still wanted. -/
theorem Covered.dropped (covered : Covered interest held) {topic : Str}
    (propagatable : isPropagatableTopic topic = true) (gone : topic ∉ interest.topics) :
    Covered interest (held.erase topic) := by
  refine covered.imp (fun every => ?_) fun ⟨narrow,topics⟩ => ⟨narrow,fun t listed => ?_⟩
  · exact Finset.mem_erase.mpr ⟨(propagatable_ne_wildcard propagatable).symm,every⟩
  · refine Finset.mem_erase.mpr ⟨?_,topics t listed⟩
    rintro rfl
    exact gone listed

theorem Covered.unsubscribed (covered : Covered interest held) (topic : Str) :
    Covered (interest.noteTopicUnsubscribed topic).1
      (replay held (Control.edits (interest.noteTopicUnsubscribed topic).2)) := by
  unfold noteTopicUnsubscribed
  split_ifs with wild flag full propagatable absent
  · exact .inl (covered.resolve_right fun both => by simp [wide,flag] at both)
  · refine covered_narrowed held ?_
    simpa [wide] using full
  · exact covered
  · exact covered
  · have rest : Covered (interest.erase topic) held :=
      covered.imp_right fun both => ⟨both.1,fun t listed => both.2 t (List.mem_of_mem_erase listed)⟩
    exact rest.dropped propagatable (by simp [erase,interest.distinct.mem_erase_iff])
  · exact covered

theorem Covered.changed (covered : Covered interest held) (topic : Str) (before now : Bool) :
    Covered (interest.noteMeshInterestChange topic before now).1
      (replay held (Control.edits (interest.noteMeshInterestChange topic before now).2)) := by
  unfold noteMeshInterestChange
  split_ifs
  · exact covered
  · exact covered.subscribed topic
  · exact covered.unsubscribed topic

/-- Everything wanted is on the new link's queue, or in the push that is still to come. -/
def Anticipated (interest : Interest) (queue pending : List Control) : Prop :=
  (interest.wide = true → .subscribe Keys.wildcardTopic ∈ queue ++ pending) ∧
    (interest.wide = false → ∀ topic ∈ interest.topics,
      .subscribe Keys.wildcardTopic ∈ queue ∨ .subscribe topic ∈ queue ++ pending)

instance (queue pending : List Control) : Decidable (Anticipated interest queue pending) :=
  inferInstanceAs (Decidable (_ ∧ _))

theorem mem_snapshot (interest : Interest) (topic : Str) :
    topic ∈ replay ∅ (Control.edits (.connect :: interest.sendInterestTo)) ↔
      .subscribe topic ∈ .connect :: interest.sendInterestTo := by
  rw [Control.edits_connect]
  unfold sendInterestTo
  split
  · simp [Edit.apply]
  · simp [replay_adds]

/-- A link entered then is covered once the push has run. -/
theorem Anticipated.covered {snapshot : Interest} {queue pending : List Control}
    (anticipated : Anticipated interest queue pending) (filled : queue = .connect :: snapshot.sendInterestTo)
    (update : Update interest pending) : Covered interest (replay ∅ (Control.edits (queue ++ pending))) := by
  have queued (topic : Str) : topic ∈ replay ∅ (Control.edits queue) ↔ .subscribe topic ∈ queue := by
    rw [filled]
    exact snapshot.mem_snapshot topic
  rw [Control.edits_append,replay_append]
  -- what the queue alone would leave uncovered, the push brings
  have before (missing : ∀ topic, .subscribe topic ∉ pending) : Covered interest (replay ∅ (Control.edits queue)) := by
    cases wide : interest.wide with
    | true => exact .inl ((queued _).mpr (by simpa [missing] using anticipated.1 wide))
    | false =>
      by_cases every : .subscribe Keys.wildcardTopic ∈ queue
      · exact .inl ((queued _).mpr every)
      · exact .inr ⟨wide,fun topic listed => (queued _).mpr (by
          simpa [missing,every] using anticipated.2 wide topic listed)⟩
  cases update with
  | none => exact before (by simp)
  | add added =>
    simp only [Control.edits_subscribe,Control.edits_nil,replay_cons,replay_nil,Edit.apply]
    cases wide : interest.wide with
    | true =>
      have found := anticipated.1 wide
      refine .inl (Finset.mem_insert.mpr ?_)
      simpa [queued,or_comm] using found
    | false =>
      by_cases every : .subscribe Keys.wildcardTopic ∈ queue
      · exact .inl (Finset.mem_insert_of_mem ((queued _).mpr every))
      · refine .inr ⟨wide,fun topic listed => Finset.mem_insert.mpr ?_⟩
        have found := (anticipated.2 wide topic listed).resolve_left every
        simpa [queued,or_comm] using found
  | drop propagatable gone => exact (before (by simp)).dropped propagatable gone
  | narrow narrow => exact covered_narrowed _ narrow

end Interest

/-- The routing state, and where the threads that work on it are. -/
structure Opening extends Routing where
  /-- What the broker thread pushes in its next link section. -/
  pending : List Control
  /-- Topics of a removed client that the broker thread has not revisited. -/
  todo : List Str
  /-- Links that `addPeer` has filled and not yet entered. -/
  opening : List PeerLink

inductive Section where
  | subscribe (clientId topic : Str) (scope : Origin)
  | unsubscribe (clientId topic : Str)
  /-- A DISCONNECT or a timeout. -/
  | leave (clientId : Str)
  | note
  | push
  | snapshot (key address : Str)
  | insert (position : Nat)

namespace Opening

def empty : Opening := { Routing.empty with pending := [], todo := [], opening := [] }

/-- The broker thread is between two messages. -/
def Free (s : Opening) : Prop := s.pending = [] ∧ s.todo = []

instance (s : Opening) : Decidable s.Free := inferInstanceAs (Decidable (_ ∧ _))

/-- The `m_interestMutex` section of `noteMeshInterestChange`. -/
def changeInterest (topic : Str) (wantedBefore : Bool) (subscriptions : SubscriptionRegistry) (s : Opening) : Opening :=
  let change := s.interest.noteMeshInterestChange topic wantedBefore (subscriptions.hasMeshSubscriber topic)
  { s with subscriptions, interest := change.1, pending := change.2 }

/-- One locked section. One that its thread has not come to changes nothing. -/
def act (brokerId : Str) : Section → Opening → Opening
  | .subscribe clientId topic scope, s =>
    if s.Free ∧ (!topic.isEmpty && topic.length ≤ maxTopicLengthBytes && s.canSubscribe clientId topic) then
      let subscribed := s.subscriptions.subscribe clientId topic scope
      if subscribed.2 then s.changeInterest topic (s.subscriptions.hasMeshSubscriber topic) subscribed.1 else s
    else s
  | .unsubscribe clientId topic, s =>
    if s.Free then
      let unsubscribed := s.subscriptions.unsubscribe clientId topic
      if unsubscribed.2 then s.changeInterest topic (s.subscriptions.hasMeshSubscriber topic) unsubscribed.1 else s
    else s
  | .leave clientId, s =>
    if s.Free then
      { s with subscriptions := s.subscriptions.removeClient clientId, todo := s.meshTopics clientId }
    else s
  | .note, s =>
    match s.todo with
    | [] => s
    | topic :: rest =>
      if s.pending = [] then { s.changeInterest topic true s.subscriptions with todo := rest } else s
  | .push, s => { s with peers := Routing.pushControl s.pending s.peers, pending := [] }
  | .snapshot key address, s =>
    { s with opening := s.opening ++ [⟨key,address,peerLinkId brokerId key,.connect :: s.interest.sendInterestTo,[],true⟩] }
  | .insert position, s =>
    match s.opening[position]? with
    | none => s
    | some link =>
      { s with
        opening := s.opening.eraseIdx position
        peers := if s.peers.any fun other => other.key == link.key || other.address == link.address then s.peers
          else s.peers ++ [link] }

def step (brokerId : Str) (part : Section) (s : Opening) : Outcome Opening Empty := ⟨s.act brokerId part,[]⟩

/-! Not interrupted by one another, the sections are the operations of the routing state. -/

section

variable {s : Opening} (brokerId : Str)

theorem push_changeInterest (topic : Str) (before : Bool) (subscriptions : SubscriptionRegistry) :
    ((s.changeInterest topic before subscriptions).act brokerId .push).toRouting =
      Routing.noteMeshInterestChange topic before { s.toRouting with subscriptions } := rfl

theorem subscribe_atomic (free : s.Free) (clientId topic : Str) (scope : Origin) :
    ((s.act brokerId (.subscribe clientId topic scope)).act brokerId .push).toRouting =
      if !topic.isEmpty && topic.length ≤ maxTopicLengthBytes && s.canSubscribe clientId topic then
        s.toRouting.subscribe clientId topic scope
      else s.toRouting := by
  have idle : (s.act brokerId .push).toRouting = s.toRouting := by
    simp [act,free.1]
  simp only [act,free,true_and]
  split
  · unfold Routing.subscribe
    dsimp only
    split
    · exact push_changeInterest brokerId _ _ _
    · exact idle
  · exact idle

theorem unsubscribe_atomic (free : s.Free) (clientId topic : Str) :
    ((s.act brokerId (.unsubscribe clientId topic)).act brokerId .push).toRouting =
      s.toRouting.unsubscribe clientId topic := by
  simp only [act,free,if_true]
  unfold Routing.unsubscribe
  dsimp only
  split
  · exact push_changeInterest brokerId _ _ _
  · simp [free.1]

theorem leave_atomic (free : s.Free) (clientId : Str) :
    (run (step brokerId) (.leave clientId :: (s.meshTopics clientId).flatMap fun _ => [.note,.push]) s).state.toRouting =
      s.toRouting.removeClient clientId := by
  have revisited (topics : List Str) (s : Opening) (listed : s.todo = topics) (idle : s.pending = []) :
      (run (step brokerId) (topics.flatMap fun _ => [.note,.push]) s).state.toRouting =
        topics.foldl (fun r topic => r.noteMeshInterestChange topic true) s.toRouting := by
    induction topics generalizing s with
    | nil => rfl
    | cons topic rest ih =>
      have noted : s.act brokerId .note = { s.changeInterest topic true s.subscriptions with todo := rest } := by
        simp [act,listed,idle]
      rw [List.flatMap_cons,run_append,List.foldl_cons]
      refine (ih _ ?_ rfl).trans ?_
      · simp only [run,step,noted]
        rfl
      · simp only [run,step,noted]
        rfl
  have left : s.act brokerId (.leave clientId) =
      { s with subscriptions := s.subscriptions.removeClient clientId, todo := s.meshTopics clientId } := by
    simp [act,free]
  rw [run,step,left]
  exact revisited (s.meshTopics clientId) _ rfl free.1

theorem addPeer_atomic (alone : s.opening = []) (key address : Str) :
    ((s.act brokerId (.snapshot key address)).act brokerId (.insert 0)).toRouting =
      s.toRouting.addPeer brokerId key address := by
  simp only [act,alone,List.nil_append,List.getElem?_cons_zero]
  unfold Routing.addPeer
  split <;> rfl

end

/-- Between any two sections. -/
structure Sane (s : Opening) : Prop where
  consistent : s.subscriptions.Consistent
  tracks : s.interest.Tracks fun topic => s.subscriptions.hasMeshSubscriber topic = true ∨ topic ∈ s.todo
  distinct : s.todo.Nodup
  update : s.interest.Update s.pending
  filled : ∀ link ∈ s.opening, ∃ snapshot : Interest, link.control = .connect :: snapshot.sendInterestTo
  covered : ∀ link ∈ s.peers, s.interest.Covered (replay ∅ (Control.edits (link.control ++ s.pending)))

/-- A link is entered only with everything wanted on its queue or about to be pushed; one that
the table has already under its key or for its address is not entered. -/
def Timely (s : Opening) : Section → Prop
  | .insert position => ∀ link ∈ s.opening[position]?,
      (∀ other ∈ s.peers, other.key ≠ link.key ∧ other.address ≠ link.address) →
        s.interest.Anticipated link.control s.pending
  | _ => True

instance (s : Opening) (part : Section) : Decidable (s.Timely part) :=
  match part with
  | .insert _ => inferInstanceAs (Decidable (∀ _ ∈ _, _))
  | .subscribe _ _ _ | .unsubscribe _ _ | .leave _ | .note | .push | .snapshot _ _ => isTrue trivial

section

variable {s : Opening} (sane : Sane s)

include sane

theorem Sane.change (idle : s.pending = []) (topic : Str) (before : Bool) {subscriptions : SubscriptionRegistry}
    (todo : List Str) (consistent : subscriptions.Consistent) (distinct : todo.Nodup)
    (tracks : (s.interest.noteMeshInterestChange topic before (subscriptions.hasMeshSubscriber topic)).1.Tracks
      fun t => subscriptions.hasMeshSubscriber t = true ∨ t ∈ todo) :
    Sane { s.changeInterest topic before subscriptions with todo } := by
  refine ⟨consistent,tracks,distinct,Interest.noteMeshInterestChange_update _ _ _ _,sane.filled,fun link member => ?_⟩
  have covered := sane.covered link member
  rw [idle,List.append_nil] at covered
  have later := covered.changed topic before (subscriptions.hasMeshSubscriber topic)
  rwa [← replay_append,← Control.edits_append] at later

/-- A change of subscriptions at one topic, and the interest section behind it. -/
theorem Sane.turn (free : s.Free) (topic : Str) {subscriptions : SubscriptionRegistry}
    (consistent : subscriptions.Consistent) (others : ∀ t, t ≠ topic → ∀ clientId,
      subscriptions.scopeOf clientId t = s.subscriptions.scopeOf clientId t) :
    Sane (s.changeInterest topic (s.subscriptions.hasMeshSubscriber topic) subscriptions) := by
  have tracks := sane.tracks
  simp only [free.2,List.not_mem_nil,or_false] at tracks
  have valid : s.toRouting.Valid := ⟨sane.consistent,tracks⟩
  have noted := (Routing.noteMeshInterestChange_valid valid consistent topic others).tracks
  refine sane.change free.1 topic _ s.todo consistent sane.distinct ?_
  simpa [free.2] using noted

theorem Sane.act (brokerId : Str) (part : Section) (timely : s.Timely part) : Sane (s.act brokerId part) := by
  cases part with
  | subscribe clientId topic scope =>
    simp only [Opening.act]
    split_ifs with ready changed
    · refine sane.turn ready.1 topic (SubscriptionRegistry.subscribe_consistent sane.consistent clientId topic scope) ?_
      intro t different other
      simp [SubscriptionRegistry.scopeOf_subscribe,different]
    · exact sane
    · exact sane
  | unsubscribe clientId topic =>
    simp only [Opening.act]
    split_ifs with free existed
    · refine sane.turn free topic (SubscriptionRegistry.unsubscribe_consistent sane.consistent clientId topic) ?_
      intro t different other
      simp [SubscriptionRegistry.scopeOf_unsubscribe,different]
    · exact sane
    · exact sane
  | leave clientId =>
    simp only [Opening.act]
    split_ifs with free
    · refine ⟨SubscriptionRegistry.removeClient_consistent sane.consistent clientId,?_,
        s.meshTopics_nodup clientId,sane.update,sane.filled,sane.covered⟩
      refine sane.tracks.congr fun t => ?_
      simp only [free.2,List.not_mem_nil,or_false]
      by_cases listed : t ∈ s.meshTopics clientId
      · simp [listed,(List.mem_filter.mp listed).2]
      · simp [listed,Routing.removeClient_unlisted sane.consistent listed]
    · exact sane
  | note =>
    simp only [Opening.act]
    split
    · exact sane
    next topic rest listed =>
      split
      next idle =>
        have distinct := sane.distinct
        rw [listed] at distinct
        obtain ⟨fresh,distinct⟩ := List.nodup_cons.mp distinct
        refine sane.change idle topic true rest sane.consistent distinct ?_
        refine (sane.tracks.changed topic true _ (by simp [listed])).congr fun t => ?_
        by_cases here : t = topic
        · subst here; simp [fresh]
        · simp [here,listed]
      · exact sane
  | push =>
    refine ⟨sane.consistent,sane.tracks,sane.distinct,.none,sane.filled,fun link member => ?_⟩
    obtain ⟨old,listed,rfl⟩ := List.mem_map.mp member
    simpa [Opening.act] using sane.covered old listed
  | snapshot key address =>
    refine ⟨sane.consistent,sane.tracks,sane.distinct,sane.update,fun link member => ?_,sane.covered⟩
    rcases List.mem_append.mp member with old | new
    · exact sane.filled link old
    · rw [List.mem_singleton.mp new]
      exact ⟨s.interest,rfl⟩
  | insert position =>
    simp only [Opening.act]
    split
    · exact sane
    next link found =>
      refine ⟨sane.consistent,sane.tracks,sane.distinct,sane.update,
        fun other member => sane.filled other (List.mem_of_mem_eraseIdx member),fun other member => ?_⟩
      split at member
      · exact sane.covered other member
      next entered =>
        rcases List.mem_append.mp member with old | new
        · exact sane.covered other old
        · rw [List.mem_singleton.mp new]
          obtain ⟨snapshot,queue⟩ := sane.filled link (List.mem_of_getElem? found)
          refine (timely link found fun other listed => ?_).covered queue sane.update
          simpa using (List.any_eq_false.mp (Bool.eq_false_iff.mpr entered)) other listed

end

theorem empty_sane : Sane empty := by
  refine ⟨Routing.empty_valid.consistent,Routing.empty_valid.tracks.congr fun t => ?_,List.nodup_nil,.none,?_,?_⟩
  · simp [empty]
  · intro link member
    cases member
  · intro link member
    cases member

/-- In every interleaving whose links are entered in time, a link that has all its
pushes gets every topic that a subscriber wants from the mesh. -/
theorem opened_link_covers (brokerId : Str) (sections : List Section)
    (timely : Always (step brokerId) Timely sections empty)
    (pushed : (run (step brokerId) sections empty).state.pending = []) :
    ∀ link ∈ (run (step brokerId) sections empty).state.peers, ∀ topic,
      topic = Keys.wildcardTopic ∨ isPropagatableTopic topic = true →
      (run (step brokerId) sections empty).state.subscriptions.hasMeshSubscriber topic = true →
        topic ∈ replay ∅ (Control.edits link.control) ∨ Keys.wildcardTopic ∈ replay ∅ (Control.edits link.control) := by
  have sane := run_invariant (step brokerId) Sane (fun s part timely sane => sane.act brokerId part timely) sections
    empty timely empty_sane
  generalize (run (step brokerId) sections empty).state = reached at *
  intro link member topic kind wanted
  have covered := sane.covered link member
  rw [pushed,List.append_nil] at covered
  rcases covered with every | ⟨narrow,topics⟩
  · exact .inr every
  · simp only [Interest.wide,Bool.or_eq_false_iff] at narrow
    rcases kind with rfl | propagatable
    · have flag := sane.tracks.wildcard.mpr (.inl wanted)
      simp [narrow.2] at flag
    · exact .inl (topics topic ((sane.tracks.topics narrow.1 topic).mpr ⟨propagatable,.inl wanted⟩))

/-- The subscription falls between the snapshot and the entry, its push after it. -/
theorem opened_link_covers_in_time :
    str "t" ∈ replay ∅ (Control.edits [.connect,.subscribe (str "t")]) ∨
      Keys.wildcardTopic ∈ replay ∅ (Control.edits [.connect,.subscribe (str "t")]) :=
  opened_link_covers (str "AAAAAAAA")
    [.snapshot (str "b") (str "b"),.subscribe (str "c") (str "t") .any,.insert 0,.push] (by decide +kernel)
    (by decide +kernel) ⟨str "b",str "b",peerLinkId (str "AAAAAAAA") (str "b"),[.connect,.subscribe (str "t")],[],true⟩
    (by decide +kernel) (str "t") (.inr (by decide)) (by decide +kernel)

/-- Both sections of the subscription fall between the snapshot and the entry. -/
theorem opened_link_misses_topic :
    let reached := (run (step (str "AAAAAAAA"))
      [.snapshot (str "b") (str "b"),.subscribe (str "c") (str "t") .any,.push,.insert 0] empty).state
    reached.Free ∧ isPropagatableTopic (str "t") = true ∧
      reached.subscriptions.hasMeshSubscriber (str "t") = true ∧ reached.peers.length = 1 ∧
      ∀ link ∈ reached.peers, str "t" ∉ replay ∅ (Control.edits link.control) ∧
        Keys.wildcardTopic ∉ replay ∅ (Control.edits link.control) := by
  refine ⟨?_,?_,?_,?_,?_⟩ <;> decide +kernel

end Opening

end Wisp
