import Wisp.Session

/-! What the broker keeps under one identity: whether it is in the client table, and
which topics it holds in which scope. The parties of the session protocol are modelled
against this record; `processMessage_record` says that it is what the broker's thread
computes, and `processMessage_greets` when a message draws a RESET. -/
namespace Wisp

/-- A client's message, as far as the client's own record goes. -/
inductive ClientMessage where
  | connect
  | subscribe (topic : Str) (scope : Origin)
  | unsubscribe (topic : Str)
  | disconnect
  /-- A heartbeat or a publication. -/
  | other
  deriving DecidableEq, Repr

def ClientMessage.read (env : Envelope) : ClientMessage :=
  let key := env.header.handlerKey
  if key = Keys.disconnect then .disconnect
  else if key = Keys.connect then .connect
  else if key = Keys.subscribe then .subscribe env.header.topic (decodeSubscribeScope env.payload)
  else if key = Keys.unsubscribe then .unsubscribe env.header.topic
  else .other

@[ext] structure ClientRecord where
  known : Bool
  topics : TopicMap

namespace ClientRecord

/-- Also what is left of a client that timed out, said goodbye or was unlinked. -/
def empty : ClientRecord := ⟨false,∅⟩

def canSubscribe (topic : Str) (r : ClientRecord) : Bool :=
  decide (topic ∈ r.topics) || decide (r.topics.keys.length < maxSubscriptionsPerClient)

def accepts (topic : Str) (r : ClientRecord) : Bool :=
  !topic.isEmpty && topic.length ≤ maxTopicLengthBytes && r.canSubscribe topic

def subscribe (topic : Str) (scope : Origin) (topics : TopicMap) : TopicMap :=
  if topics.lookup topic = some scope then topics else topics.insert topic scope

def hear : ClientMessage → ClientRecord → ClientRecord
  | .connect, r => { r with known := true }
  | .subscribe topic scope, r =>
    if r.accepts topic then ⟨true,subscribe topic scope r.topics⟩ else { r with known := true }
  | .unsubscribe topic, r => ⟨true,r.topics.erase topic⟩
  | .disconnect, _ => empty
  | .other, r => { r with known := true }

/-- The message draws a RESET: the identity is unknown and does not lead with CONNECT. -/
def greets (message : ClientMessage) (r : ClientRecord) : Bool :=
  !r.known && message != .connect && message != .disconnect

def held (r : ClientRecord) : Finset Str := r.topics.keys.toFinset

variable {r : ClientRecord}

theorem mem_held {topic : Str} : topic ∈ r.held ↔ topic ∈ r.topics := by
  rw [held,List.mem_toFinset,AList.mem_keys]

@[simp] theorem held_empty : empty.held = ∅ := rfl

theorem held_card (r : ClientRecord) : r.held.card = r.topics.keys.length :=
  List.toFinset_card_of_nodup r.topics.keys_nodup

theorem lookup_subscribe (topics : TopicMap) (topic other : Str) (scope : Origin) :
    (subscribe topic scope topics).lookup other = if other = topic then some scope else topics.lookup other := by
  unfold subscribe
  split
  next same =>
    split
    next here => rw [here,same]
    · rfl
  · exact SubscriptionRegistry.lookup_insert_topic topics topic other scope

theorem mem_subscribe (topics : TopicMap) (topic other : Str) (scope : Origin) :
    other ∈ subscribe topic scope topics ↔ other = topic ∨ other ∈ topics := by
  rw [← AList.lookup_isSome,lookup_subscribe,← AList.lookup_isSome]
  split <;> simp_all

/-- Below the limit the record is the log of the subscriptions, replayed. -/
theorem held_subscribe {topic : Str} (scope : Origin) (accepted : r.accepts topic = true) :
    (r.hear (.subscribe topic scope)).held = insert topic r.held := by
  ext other
  rw [hear,if_pos accepted,mem_held,mem_subscribe,Finset.mem_insert,mem_held]

theorem held_subscribe_subset (topic : Str) (scope : Origin) :
    (r.hear (.subscribe topic scope)).held ⊆ insert topic r.held := by
  cases accepted : r.accepts topic with
  | true => rw [held_subscribe scope accepted]
  | false =>
    rw [hear,if_neg (by simp [accepted])]
    exact Finset.subset_insert _ _

theorem held_unsubscribe (topic : Str) : (r.hear (.unsubscribe topic)).held = r.held.erase topic := by
  ext other
  simp only [hear,mem_held,Finset.mem_erase,AList.mem_erase]

end ClientRecord

namespace SubscriptionRegistry

variable (r : SubscriptionRegistry) (clientId topic : Str)

theorem topicsOf_subscribe (scope : Origin) : (r.subscribe clientId topic scope).1.topicsOf clientId =
    ClientRecord.subscribe topic scope (r.topicsOf clientId) := by
  unfold subscribe ClientRecord.subscribe
  cases held : (r.topicsOf clientId).lookup topic with
  | none => simp [topicsOf]
  | some old =>
    by_cases same : old = scope
    · simp [same]
    · simp [same,topicsOf]

theorem erase_of_notMem {topics : TopicMap} (absent : topic ∉ topics) : topics.erase topic = topics :=
  AList.ext (List.kerase_of_notMem_keys absent)

theorem topicsOf_unsubscribe :
    (r.unsubscribe clientId topic).1.topicsOf clientId = (r.topicsOf clientId).erase topic := by
  unfold unsubscribe
  cases held : r.clientTopics.lookup clientId with
  | none =>
    have none : r.topicsOf clientId = ∅ := by simp [topicsOf,held]
    simp only [none]
    rfl
  | some topics =>
    have here : r.topicsOf clientId = topics := by simp [topicsOf,held]
    rw [here]
    by_cases member : topic ∈ topics
    · simp only [member,if_true]
      split
      next last =>
        have gone : topics.erase topic = ∅ := by
          refine AList.ext ?_
          simpa [AList.keys,List.keys] using last
        simp [topicsOf,gone]
      · simp [topicsOf]
    · simp [member,here,erase_of_notMem]

theorem topicsOf_removeClient : (r.removeClient clientId).topicsOf clientId = ∅ := by
  unfold removeClient
  cases held : r.clientTopics.lookup clientId with
  | none => simp [topicsOf,held]
  | some topics => simp [topicsOf]

end SubscriptionRegistry

namespace Routing

variable (r : Routing) (clientId topic : Str)

theorem topicsOf_subscribe (scope : Origin) : (r.subscribe clientId topic scope).subscriptions.topicsOf clientId =
    ClientRecord.subscribe topic scope (r.subscriptions.topicsOf clientId) := by
  rw [← SubscriptionRegistry.topicsOf_subscribe]
  unfold subscribe
  dsimp only
  split
  · rfl
  next unchanged => rw [SubscriptionRegistry.subscribe_unchanged r.subscriptions clientId topic scope (by simpa using unchanged)]

theorem topicsOf_unsubscribe : (r.unsubscribe clientId topic).subscriptions.topicsOf clientId =
    (r.subscriptions.topicsOf clientId).erase topic := by
  rw [← SubscriptionRegistry.topicsOf_unsubscribe]
  unfold unsubscribe
  dsimp only
  split
  · rfl
  next unchanged => rw [SubscriptionRegistry.unsubscribe_unchanged r.subscriptions clientId topic (by simpa using unchanged)]

theorem topicsOf_removeClient : (r.removeClient clientId).subscriptions.topicsOf clientId = ∅ := by
  rw [removeClient_subscriptions]
  exact r.subscriptions.topicsOf_removeClient clientId

theorem canSubscribe_topicsOf : r.canSubscribe clientId topic =
    (decide (topic ∈ r.subscriptions.topicsOf clientId) ||
      decide ((r.subscriptions.topicsOf clientId).keys.length < maxSubscriptionsPerClient)) := by
  unfold canSubscribe SubscriptionRegistry.subscriptionsOf SubscriptionRegistry.topicsOf
  cases r.subscriptions.clientTopics.lookup clientId with
  | none => rfl
  | some topics => rfl

end Routing

namespace Broker

def recordOf (clientId : Str) (b : Broker) : ClientRecord :=
  ⟨decide (clientId ∈ b.clients),b.subscriptions.topicsOf clientId⟩

/-- The message is not taken for an echo of one already routed. -/
def Heard (env : Envelope) (m : Moment) (b : Broker) : Prop :=
  Keys.isReservedKey env.header.handlerKey = false →
    (b.seen.isDuplicate (b.stamp env m).header.messageUuid).2 = false

variable {env : Envelope} {clientId : Str} {m : Moment} {b : Broker}

theorem turn_topicsOf (env : Envelope) (clientId : Str) (b : Broker) :
    (turn env clientId b.toRouting).subscriptions.topicsOf clientId =
      ((b.recordOf clientId).hear (.read env)).topics := by
  have other (key : Str) : key ≠ Keys.disconnect → key ≠ Keys.subscribe → key ≠ Keys.unsubscribe →
      env.header.handlerKey = key → turn env clientId b.toRouting = b.toRouting := by
    rintro leaves adds drops rfl
    exact turn_other env clientId b.toRouting leaves adds drops
  unfold ClientMessage.read
  dsimp only
  split_ifs with leaves connects adds drops
  · rw [turn,if_pos leaves]
    exact Routing.topicsOf_removeClient _ clientId
  · rw [other _ (by decide) (by decide) (by decide) connects]
    rfl
  · have same : (!env.header.topic.isEmpty && decide (env.header.topic.length ≤ maxTopicLengthBytes) &&
        b.toRouting.canSubscribe clientId env.header.topic) = (b.recordOf clientId).accepts env.header.topic := by
      rw [Routing.canSubscribe_topicsOf]
      rfl
    rw [turn,if_neg leaves,if_pos adds,same,ClientRecord.hear]
    split
    · exact Routing.topicsOf_subscribe _ _ _ _
    · rfl
  · rw [turn,if_neg leaves,if_neg adds,if_pos drops]
    exact Routing.topicsOf_unsubscribe _ _ _
  · rw [turn_other env clientId _ leaves adds drops]
    rfl

theorem read_published (published : Keys.isReservedKey env.header.handlerKey = false) :
    ClientMessage.read env = .other := by
  have quiet := idle_published published
  have unled : env.header.handlerKey ≠ Keys.connect := by
    intro same
    simp [same,show Keys.isReservedKey Keys.connect = true from rfl] at published
  simp [ClientMessage.read,quiet.stays,quiet.adds,quiet.drops,unled]

theorem hear_known (env : Envelope) (r : ClientRecord) :
    (r.hear (.read env)).known = decide (env.header.handlerKey ≠ Keys.disconnect) := by
  unfold ClientMessage.read
  dsimp only
  split_ifs with leaves <;> simp [ClientRecord.hear,ClientRecord.empty,leaves]
  split <;> rfl

/-- One turn of the broker, as the sender's record sees it. -/
theorem processMessage_record (heard : b.Heard env m) (stays : env.header.handlerKey ≠ Keys.setCluster) :
    (b.processMessage env clientId false m).state.recordOf clientId = (b.recordOf clientId).hear (.read env) := by
  have known := hear_known env (b.recordOf clientId)
  have topics := turn_topicsOf env clientId b
  cases reserved : Keys.isReservedKey env.header.handlerKey with
  | true =>
    refine ClientRecord.ext ?_ ?_
    · rw [known]
      refine decide_eq_decide.mpr ((reserved_clients env clientId m b reserved stays clientId).trans ?_)
      split <;> simp_all
    · rw [← topics,← reserved_routing env clientId m b reserved stays]
      rfl
  | false =>
    have routing := published_routing env clientId false m b reserved
    have member : clientId ∈ (b.processMessage env clientId false m).state.clients := by
      rw [processMessage_routed env clientId false m b reserved (heard reserved)]
      have after := (noteDropped_all ((b.ready env clientId false m).recipients
        (b.stamp env m).header.topic clientId false) (b.stamp env m) m (b.ready env clientId false m)).2.2 clientId
      exact after.mpr ((ready_clients env clientId false m b clientId).mpr (.inl ⟨rfl,rfl⟩))
    rw [read_published reserved]
    unfold recordOf
    rw [routing]
    simp [ClientRecord.hear,member]

theorem greets_iff (env : Envelope) (clientId : Str) (b : Broker) :
    (b.recordOf clientId).greets (.read env) = true ↔ clientId ∉ b.clients ∧
      env.header.handlerKey ≠ Keys.connect ∧ env.header.handlerKey ≠ Keys.disconnect := by
  have apart : Keys.connect ≠ Keys.disconnect := by decide
  unfold ClientMessage.read
  dsimp only
  split_ifs with leaves connects <;>
    simp_all [ClientRecord.greets,recordOf]

/-- A goodbye is not answered. -/
theorem processMessage_goodbye (leaves : env.header.handlerKey = Keys.disconnect) :
    (b.processMessage env clientId false m).events = [.tap (b.stamp env m)] := by
  have reserved : Keys.isReservedKey env.header.handlerKey = true := by rw [leaves]; rfl
  rw [processMessage_reserved env clientId m b reserved,handleClientMessage]
  simp [leaves]

/-- The RESET is attempted in the turn that enters the identity, and in no other. -/
theorem processMessage_greets (heard : b.Heard env m) (stays : env.header.handlerKey ≠ Keys.setCluster) :
    m.sendTo clientId (Wire.makeControl Keys.reset b.brokerId []) ∈ (b.processMessage env clientId false m).events ↔
      (b.recordOf clientId).greets (.read env) = true := by
  rw [greets_iff]
  constructor
  · intro member
    have remains : env.header.handlerKey ≠ Keys.disconnect := by
      intro leaves
      rw [processMessage_goodbye leaves,List.mem_singleton] at member
      cases member
    by_contra! settled
    refine (processMessage_polite (.inr stays) member ?_).1 rfl
    by_cases known : clientId ∈ b.clients
    · exact .inr (.inr (.inl known))
    · refine .inr (.inr (.inr ?_))
      by_contra unled
      exact remains (settled known unled)
  · rintro ⟨unknown,unled,remains⟩
    have greeting : m.sendTo clientId (Wire.makeControl Keys.reset b.brokerId []) ∈
        b.greet env.header.handlerKey clientId m := by
      rw [greet,if_pos ⟨unknown,unled⟩]
      exact List.mem_singleton_self _
    cases reserved : Keys.isReservedKey env.header.handlerKey with
    | true =>
      rw [processMessage_reserved env clientId m b reserved,handleClientMessage]
      refine List.mem_cons_of_mem _ ?_
      simp only [stamp_key,remains,if_false]
      split_ifs
      all_goals first | exact greeting | exact List.mem_append_left _ greeting
    | false =>
      rw [processMessage_routed env clientId false m b reserved (heard reserved)]
      simp only [Bool.false_eq_true,if_false,List.mem_cons,List.mem_append]
      exact .inr (.inr (.inl (.inl greeting)))

end Broker

end Wisp
