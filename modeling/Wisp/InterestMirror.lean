import Wisp.BrokerTurn

/-! One broker and its links, over any sequence of the operations that change
interest. The messages queued on a link are its log: nothing is taken off it but
by a remote that forgot the link, after which the log starts at what is left. -/
namespace Wisp

open Transition EditLog

namespace Broker

/-- The operations of a broker and its link table, each atomic. -/
inductive Operation where
  | receive (senderId : Str) (env : Envelope) (m : Moment)
  | receivePeer (env : Envelope) (m : Moment)
  | timeout (clientId : Str)
  | addPeer (key address : Str)
  | removePeer (key : Str)
  | reset (key : Str) (processed : Nat)

/-- The remote of a link forgot it after `processed` of its messages, and the RESET
this led to was answered. -/
def restartLink (key : Str) (processed : Nat) (r : Routing) : Routing :=
  { r with peers := r.peers.map fun link =>
      if link.key = key then
        { link with control := link.control.drop processed ++ r.interest.sendInterestTo }
      else link }

def operate : Operation → Broker → Outcome Broker Output
  | .receive senderId env m, b => b.processMessage env senderId false m
  | .receivePeer env m, b => b.processMessage env (str "PEER") true m
  | .timeout clientId, b => ⟨b.removeClient clientId,[]⟩
  | .addPeer key address, b => ⟨{ b with toRouting := b.toRouting.addPeer b.brokerId key address },[]⟩
  | .removePeer key, b => b.removePeer key
  | .reset key processed, b => ⟨{ b with toRouting := restartLink key processed b.toRouting },[]⟩

/-- Every link's log rebuilds, from nothing, what the broker wants. -/
def InStep (r : Routing) : Prop := r.Valid ∧ r.Mirrors fun _ _ => ∅

theorem inStep_closed : Routing.Closed InStep :=
  Routing.valid_upheld.toClosed.and (Routing.mirrors_closed _)

theorem operate_inStep (operation : Operation) (b : Broker) (inStep : InStep b.toRouting) :
    InStep (operate operation b).state.toRouting := by
  cases operation with
  | receive senderId env m => exact processMessage_closed inStep_closed env senderId false m b inStep
  | receivePeer env m => exact processMessage_closed inStep_closed env _ true m b inStep
  | timeout clientId => exact inStep_closed.removeClient b.toRouting clientId inStep
  | addPeer key address =>
    simp only [operate,Routing.addPeer]
    split
    · exact inStep
    · refine ⟨⟨inStep.1.consistent,inStep.1.tracks⟩,fun link member => ?_⟩
      rcases List.mem_append.mp member with old | new
      · exact inStep.2 link old
      · rw [List.mem_singleton.mp new]
        exact b.interest.opened
  | removePeer key => exact removePeer_shedding inStep_closed.toShedding key b inStep
  | reset key processed =>
    refine ⟨⟨inStep.1.consistent,inStep.1.tracks⟩,fun link member => ?_⟩
    obtain ⟨old,listed,rfl⟩ := List.mem_map.mp member
    have mirrored := inStep.2 old listed
    dsimp only
    split
    · rw [← List.take_append_drop processed old.control] at mirrored
      exact mirrored.restart
    · exact mirrored

theorem run_inStep (operations : List Operation) (brokerId clusterName : Str) (discovery : Option Discovery) :
    InStep (run operate operations (new brokerId clusterName discovery)).state.toRouting := by
  refine run_preserves operate (fun b => InStep b.toRouting) (fun b operation => operate_inStep operation b)
    operations _ ⟨Routing.empty_valid,?_⟩
  intro link member
  cases member

theorem interest_mirrored_on_links (brokerId clusterName : Str) (discovery : Option Discovery)
    (operations : List Operation) :
    let b := (run operate operations (new brokerId clusterName discovery)).state
    (b.interest.wildcard = true ↔ ∃ subscriber ∈
        SubscriptionRegistry.listed b.subscriptions.topicSubscribers Keys.wildcardTopic,
          scopeAccepts subscriber.scope false = true) ∧
    (b.interest.saturated = false → ∀ topic, topic ∈ b.interest.topics ↔
      isPropagatableTopic topic = true ∧ ∃ subscriber ∈
        SubscriptionRegistry.listed b.subscriptions.topicSubscribers topic,
          scopeAccepts subscriber.scope false = true) ∧
    ∀ link ∈ b.peers,
      (b.interest.wide = true → Keys.wildcardTopic ∈ replay ∅ (Control.edits link.control)) ∧
      (replay ∅ (Control.edits link.control) = b.interest.topics.toFinset ↔ b.interest.wide = false) ∧
      ∀ front, front <+: link.control →
        (replay ∅ (Control.edits front)).card ≤ maxInterestTopics + 2 ∧
        ∀ remote : Routing, remote.subscriptions.held link.linkId = replay ∅ (Control.edits front) →
          ∀ topic, remote.canSubscribe link.linkId topic = true := by
  intro b
  obtain ⟨⟨consistent,tracks⟩,mirrors⟩ := run_inStep operations brokerId clusterName discovery
  have wanted (topic : Str) : b.subscriptions.hasMeshSubscriber topic = true ↔ ∃ subscriber ∈
      SubscriptionRegistry.listed b.subscriptions.topicSubscribers topic,
        scopeAccepts subscriber.scope false = true := by
    rw [SubscriptionRegistry.hasMeshSubscriber_listed,List.any_eq_true]
  refine ⟨tracks.wildcard.trans (wanted _),?_,fun link member => ?_⟩
  · intro unsaturated topic
    rw [← wanted]
    exact tracks.topics unsaturated topic
  · have mirrored := mirrors link member
    refine ⟨mirrored.wide,⟨fun same => ?_,mirrored.narrow⟩,fun front initial => ?_⟩
    · by_contra wide
      have held := mirrored.wide (Bool.not_eq_false _ ▸ wide)
      rw [same,List.mem_toFinset] at held
      exact b.interest.wildcard_not_mem held
    · have small : (replay ∅ (Control.edits front)).card ≤ maxInterestTopics + 2 :=
        mirrored.small _ (initial.filterMap _)
      exact ⟨small,fun remote held topic => Routing.canSubscribe_of_small remote link.linkId topic (held ▸ small)⟩

end Broker

end Wisp
