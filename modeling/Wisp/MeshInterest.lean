import Wisp.Ancestry
import Wisp.MeshSessions

/-! Interest across a mesh at rest. A link's subscriptions at its remote are the
dialing broker's interest, so what a broker wants is what its own clients want and
what the brokers that dialed it want, and so on back along the dialing. -/
namespace Wisp

open Transition Relation

namespace Interest

/-- The filter itself is in the interest: a topic by its name, the wildcard by its flag. -/
def Names (interest : Interest) (filter : Str) : Prop :=
  filter ∈ interest.topics ∨ filter = Keys.wildcardTopic ∧ interest.wildcard = true

/-- Messages on the topic are wanted. -/
def Wants (interest : Interest) (topic : Str) : Prop :=
  topic ∈ interest.topics ∨ interest.wildcard = true ∨ interest.saturated = true

theorem Tracks.names {wants : Str → Prop} {interest : Interest} (tracks : Tracks interest wants)
    (unsaturated : interest.saturated = false) {filter : Str} (kind : Filter filter) :
    interest.Names filter ↔ wants filter := by
  unfold Names
  rcases kind with rfl | propagatable
  · rw [← tracks.wildcard]
    simp [interest.wildcard_not_mem]
  · rw [tracks.topics unsaturated]
    simp [propagatable,propagatable_ne_wildcard propagatable]

theorem Names.wants {interest : Interest} {filter topic : Str} (matching : filter = Keys.wildcardTopic ∨ filter = topic)
    (named : interest.Names filter) : interest.Wants topic := by
  rcases named with listed | ⟨rfl,flag⟩
  · rcases matching with rfl | rfl
    · exact (interest.wildcard_not_mem listed).elim
    · exact .inl listed
  · exact .inr (.inl flag)

end Interest

namespace Mesh

variable {n : Nat} {locate : Str → Option (Fin n)} {s : Mesh n}

/-- Broker `i` holds a link dialed to broker `k`. -/
def Dials (locate : Str → Option (Fin n)) (s : Mesh n) (i k : Fin n) : Prop :=
  ∃ link ∈ (s.broker i).peers, locate link.address = some k

instance (i k : Fin n) : Decidable (Dials locate s i k) := inferInstanceAs (Decidable (∃ _ ∈ _, _))

/-- No control message is queued on a link. -/
def Quiet (locate : Str → Option (Fin n)) (s : Mesh n) : Prop :=
  ∀ i, ∀ link ∈ (s.broker i).peers, ∀ k, locate link.address = some k → link.control = []

instance : Decidable (Quiet locate s) := inferInstanceAs (Decidable (∀ _, ∀ _ ∈ _, _))

/-- A client that is not a link subscribes to the filter and accepts mesh traffic. -/
def ClientHolds (locate : Str → Option (Fin n)) (s : Mesh n) (k : Fin n) (filter : Str) : Prop :=
  ∃ subscriber ∈ SubscriptionRegistry.listed (s.broker k).subscriptions.topicSubscribers filter,
    ¬s.Linked locate k subscriber.clientId ∧ scopeAccepts subscriber.scope false = true

instance (k : Fin n) (filter : Str) : Decidable (ClientHolds locate s k filter) :=
  inferInstanceAs (Decidable (∃ _ ∈ _, _))

/-- A subscription that accepts mesh traffic puts its filter in the interest. -/
theorem Sound.subscriber_named (sound : Sound locate s) {filter : Str} (kind : Interest.Filter filter) {k : Fin n} {clientId : Str} {scope : Origin}
    (held : (s.broker k).subscriptions.scopeOf clientId filter = some scope)
    (accepts : scopeAccepts scope false = true) :
    (s.broker k).interest.Names filter ∨ (s.broker k).interest.saturated = true := by
  have valid := sound.valid k
  cases full : (s.broker k).interest.saturated with
  | true => exact .inr rfl
  | false =>
    refine .inl ((valid.tracks.names full kind).mpr ?_)
    exact (SubscriptionRegistry.hasMeshSubscriber_iff valid.consistent filter).mpr ⟨clientId,scope,held,accepts⟩

section

variable (sound : Sound locate s) (quiet : Quiet locate s)

include sound quiet

/-- At rest the remote holds for a link what the dialing broker wants. -/
theorem quiet_held {i k : Fin n} {link : PeerLink} (member : link ∈ (s.broker i).peers)
    (located : locate link.address = some k) :
    ((s.broker i).interest.wide = true → Keys.wildcardTopic ∈ (s.broker k).subscriptions.held link.linkId) ∧
      ((s.broker i).interest.wide = false →
        (s.broker k).subscriptions.held link.linkId = (s.broker i).interest.topics.toFinset) ∧
      (s.broker k).subscriptions.held link.linkId ⊆ (s.broker i).interest.reach := by
  have mirrored := (sound.sessions i link member).mirrored
  rw [view_located located,quiet i link member k located] at mirrored
  exact ⟨mirrored.wide,mirrored.narrow,mirrored.within⟩

/-- A filter a link holds is one its broker names, unless that broker is saturated. -/
theorem held_named {i k : Fin n} {link : PeerLink} (member : link ∈ (s.broker i).peers)
    (located : locate link.address = some k) {filter : Str}
    (held : filter ∈ (s.broker k).subscriptions.held link.linkId) :
    (s.broker i).interest.Names filter ∨ (s.broker i).interest.saturated = true := by
  obtain ⟨-,narrow,within⟩ := quiet_held sound quiet member located
  cases wide : (s.broker i).interest.wide with
  | false =>
    rw [narrow wide,List.mem_toFinset] at held
    exact .inl (.inl held)
  | true =>
    have reached := within held
    simp only [Interest.reach,Finset.mem_insert,List.mem_toFinset] at reached
    rcases reached with rfl | listed
    · simp only [Interest.wide,Bool.or_eq_true] at wide
      exact wide.symm.imp (fun flag => .inr ⟨rfl,flag⟩) id
    · exact .inl (.inl listed)

/-- Where a broker has a filter from: its own clients, its saturation, or a broker that dialed it. -/
theorem named_back {filter : Str} (kind : Interest.Filter filter) (k : Fin n)
    (named : (s.broker k).interest.Names filter ∨ (s.broker k).interest.saturated = true) :
    (ClientHolds locate s k filter ∨ (s.broker k).interest.saturated = true) ∨
      ∃ i, Dials locate s i k ∧
        ((s.broker i).interest.Names filter ∨ (s.broker i).interest.saturated = true) := by
  cases full : (s.broker k).interest.saturated with
  | true => exact .inl (.inr rfl)
  | false =>
    have valid := sound.valid k
    have wanted := (valid.tracks.names full kind).mp (named.resolve_right (by simp [full]))
    rw [SubscriptionRegistry.hasMeshSubscriber_listed,List.any_eq_true] at wanted
    obtain ⟨subscriber,listed,accepts⟩ := wanted
    by_cases linked : s.Linked locate k subscriber.clientId
    · rcases linked with ⟨i,link,member,located,same⟩ | ⟨link,member,-⟩
      · refine .inr ⟨i,⟨link,member,located⟩,held_named sound quiet member located ?_⟩
        have entry := (valid.consistent.agree subscriber.clientId filter subscriber.scope).mpr listed
        rw [SubscriptionRegistry.mem_held,same,entry]
        simp
      · simp [sound.closing] at member
    · exact .inl (.inl ⟨subscriber,listed,linked,accepts⟩)

/-- At rest a link stands at its remote for what its broker wants, wherever it came from. -/
theorem link_wants {i k : Fin n} {link : PeerLink} (member : link ∈ (s.broker i).peers)
    (located : locate link.address = some k) {topic : Str} (wants : (s.broker i).interest.Wants topic)
    (isLocal : Bool) : Broker.Wants (s.broker k).subscriptions link.linkId topic isLocal := by
  obtain ⟨broad,narrow,-⟩ := quiet_held sound quiet member located
  have session := sound.sessions i link member
  rw [view_located located] at session
  have entry {filter : Str} (held : filter ∈ (s.broker k).subscriptions.held link.linkId) :
      ∃ scope, (s.broker k).subscriptions.scopeOf link.linkId filter = some scope ∧
        scopeAccepts scope isLocal = true := by
    rw [SubscriptionRegistry.mem_held] at held
    obtain ⟨scope,entry⟩ := Option.ne_none_iff_exists'.mp held
    refine ⟨scope,entry,?_⟩
    rw [session.everyOrigin filter scope entry,scopeAccepts_any]
  cases wide : (s.broker i).interest.wide with
  | true => exact ⟨_,.inr rfl,entry (broad wide)⟩
  | false =>
    have listed : topic ∈ (s.broker i).interest.topics := by
      simp only [Interest.wide,Bool.or_eq_false_iff] at wide
      simpa [Interest.Wants,wide.1,wide.2] using wants
    refine ⟨topic,.inl rfl,entry ?_⟩
    rw [narrow wide]
    exact List.mem_toFinset.mpr listed

theorem link_wanted {i k : Fin n} {link : PeerLink} (member : link ∈ (s.broker i).peers)
    (located : locate link.address = some k) {topic : Str} {isLocal : Bool}
    (wants : Broker.Wants (s.broker k).subscriptions link.linkId topic isLocal) :
    (s.broker i).interest.Wants topic := by
  obtain ⟨filter,matching,scope,entry,-⟩ := wants
  have held : filter ∈ (s.broker k).subscriptions.held link.linkId := by
    rw [SubscriptionRegistry.mem_held,entry]
    simp
  exact (held_named sound quiet member located held).elim (fun named => named.wants matching.symm)
    fun full => .inr (.inr full)

theorem wants_forth {topic : Str} (propagatable : isPropagatableTopic topic = true) (i k : Fin n)
    (dials : Dials locate s i k) (wants : (s.broker i).interest.Wants topic) :
    (s.broker k).interest.Wants topic := by
  obtain ⟨link,member,located⟩ := dials
  obtain ⟨filter,matching,scope,entry,accepts⟩ := link_wants sound quiet member located wants false
  have kind : Interest.Filter filter := by
    rcases matching with rfl | rfl
    · exact .inr propagatable
    · exact .inl rfl
  exact (sound.subscriber_named kind entry accepts).elim (fun named => named.wants matching.symm)
    fun full => .inr (.inr full)

end

theorem interest_aggregates_along_dialing (locate : Str → Option (Fin n)) (s : Mesh n) (initial : Initial s)
    (schedule : List (Label n)) (routine : Always (step locate) (Routine locate) schedule s)
    (quiet : Quiet locate (run (step locate) schedule s).state)
    (acyclic : ∀ i, ¬TransGen (Dials locate (run (step locate) schedule s).state) i i)
    (topic : Str) (propagatable : isPropagatableTopic topic = true) (k : Fin n) :
    ((run (step locate) schedule s).state.broker k).interest.Wants topic ↔
      ∃ i, ReflTransGen (Dials locate (run (step locate) schedule s).state) i k ∧
        (ClientHolds locate (run (step locate) schedule s).state i topic ∨
          ClientHolds locate (run (step locate) schedule s).state i Keys.wildcardTopic ∨
          ((run (step locate) schedule s).state.broker i).interest.saturated = true) := by
  have sound := run_sound initial schedule routine
  generalize (run (step locate) schedule s).state = reached at *
  constructor
  · intro wants
    have traced {filter : Str} (kind : Interest.Filter filter)
        (named : (reached.broker k).interest.Names filter ∨ (reached.broker k).interest.saturated = true) :=
      Ancestry.traced (named_back sound quiet kind) (fun i _ => acyclic i) named
    rcases wants with listed | flag | full
    · obtain ⟨i,path,source⟩ := traced (.inr propagatable) (.inl (.inl listed))
      exact ⟨i,path,source.imp id .inr⟩
    · obtain ⟨i,path,source⟩ := traced (.inl rfl) (.inl (.inr ⟨rfl,flag⟩))
      exact ⟨i,path,.inr source⟩
    · exact ⟨k,.refl,.inr (.inr full)⟩
  · rintro ⟨i,path,source⟩
    refine Ancestry.handed_on (wants_forth sound quiet propagatable) path ?_
    have own {filter : Str} (kind : Interest.Filter filter) (matching : filter = Keys.wildcardTopic ∨ filter = topic)
        (holds : ClientHolds locate reached i filter) : (reached.broker i).interest.Wants topic := by
      obtain ⟨subscriber,listed,-,accepts⟩ := holds
      have entry := ((sound.valid i).consistent.agree _ filter _).mpr listed
      exact (sound.subscriber_named kind entry accepts).elim (fun named => named.wants matching) fun full => .inr (.inr full)
    rcases source with holds | holds | full
    · exact own (.inr propagatable) (.inr rfl) holds
    · exact own (.inl rfl) (.inl rfl) holds
    · exact .inr (.inr full)

/-- A client of the first broker subscribes, and the link to the second passes it on. -/
def subscribedAcross : List (Label 2) :=
  [.client 0 (str "c") (subscription (str "t") .any) (stamping 0),.dial 0 (str "b") (str "b"),
    .control 0 (str "b") (stamping 0),.control 0 (str "b") (stamping 0)]

theorem interest_aggregates_along_pair :
    ((run (step pair) subscribedAcross (start pairIds fun _ => none)).state.broker 1).interest.Wants (str "t") := by
  have dials : ∀ i k, Dials pair (run (step pair) subscribedAcross (start pairIds fun _ => none)).state i k →
      i.val < k.val := by decide +kernel
  refine (interest_aggregates_along_dialing pair _ (start_initial _ _) subscribedAcross (by decide +kernel)
    (by decide +kernel) (Ancestry.acyclic_of_rank dials) (str "t") (by decide) 1).mpr ⟨0,.single ?_,.inl ?_⟩
  · decide +kernel
  · decide +kernel

/-- At a broker that no dialing cycle leads to, and no saturated broker either, a
filter goes with the last client anywhere that held it. -/
theorem interest_withdrawn (locate : Str → Option (Fin n)) (s : Mesh n) (initial : Initial s)
    (schedule : List (Label n)) (routine : Always (step locate) (Routine locate) schedule s)
    (quiet : Quiet locate (run (step locate) schedule s).state) (filter : Str) (kind : Interest.Filter filter)
    (gone : ∀ i, ¬ClientHolds locate (run (step locate) schedule s).state i filter) (k : Fin n)
    (acyclic : ∀ i, ReflTransGen (Dials locate (run (step locate) schedule s).state) i k →
      ¬TransGen (Dials locate (run (step locate) schedule s).state) i i)
    (unsaturated : ∀ i, ReflTransGen (Dials locate (run (step locate) schedule s).state) i k →
      ((run (step locate) schedule s).state.broker i).interest.saturated = false) :
    ¬((run (step locate) schedule s).state.broker k).interest.Names filter ∧
      ∀ i, ∀ link ∈ ((run (step locate) schedule s).state.broker i).peers, locate link.address = some k →
        filter ∉ ((run (step locate) schedule s).state.broker k).subscriptions.held link.linkId := by
  have sound := run_sound initial schedule routine
  generalize (run (step locate) schedule s).state = reached at *
  have nowhere (j : Fin n) (path : ReflTransGen (Dials locate reached) j k) :
      ¬((reached.broker j).interest.Names filter ∨ (reached.broker j).interest.saturated = true) := by
    intro named
    obtain ⟨i,back,source⟩ := Ancestry.traced (named_back sound quiet kind)
      (fun i back => acyclic i (back.trans path)) named
    rcases source with holds | full
    · exact gone i holds
    · simp [unsaturated i (back.trans path)] at full
  refine ⟨fun named => nowhere k .refl (.inl named),fun i link member located held => ?_⟩
  exact nowhere i (.single ⟨link,member,located⟩) (held_named sound quiet member located held)

def unsubscription (topic : Str) : Envelope := Wire.makeControl Keys.unsubscribe [] topic

/-- The subscriber goes, and the link passes that on. -/
def withdrawnAcross : List (Label 2) :=
  subscribedAcross ++ [.client 0 (str "c") (unsubscription (str "t")) (stamping 0),.control 0 (str "b") (stamping 0)]

theorem interest_withdrawn_along_pair :
    ¬((run (step pair) withdrawnAcross (start pairIds fun _ => none)).state.broker 1).interest.Names (str "t") := by
  have dials : ∀ i k, Dials pair (run (step pair) withdrawnAcross (start pairIds fun _ => none)).state i k →
      i.val < k.val := by decide +kernel
  have unsaturated : ∀ i, ((run (step pair) withdrawnAcross (start pairIds fun _ => none)).state.broker
      i).interest.saturated = false := by decide +kernel
  exact (interest_withdrawn pair _ (start_initial _ _) withdrawnAcross (by decide +kernel) (by decide +kernel)
    (str "t") (.inr (by decide)) (by decide +kernel) 1 (fun i _ => Ancestry.acyclic_of_rank dials i)
    fun i _ => unsaturated i).1

/-- The second broker dials back before the subscriber goes. -/
def dialedBack : List (Label 2) :=
  subscribedAcross ++ [.dial 1 (str "a") (str "a"),.control 1 (str "a") (stamping 0),.control 1 (str "a") (stamping 0),
    .client 0 (str "c") (unsubscription (str "t")) (stamping 0)]

/-- Each broker's link then counts as a subscriber at the other, and keeps the topic there. -/
theorem interest_sustained_by_mutual_links :
    let reached := (run (step pair) dialedBack (start pairIds fun _ => none)).state
    Always (step pair) (Routine pair) dialedBack (start pairIds fun _ => none) ∧ Quiet pair reached ∧
      (∀ i, ¬ClientHolds pair reached i (str "t") ∧ ¬ClientHolds pair reached i Keys.wildcardTopic) ∧
      ∀ i, (reached.broker i).interest.saturated = false ∧ str "t" ∈ (reached.broker i).interest.topics := by
  refine ⟨?_,?_,?_,?_⟩ <;> decide +kernel

end Mesh

end Wisp
