import Wisp.Interest
import Wisp.SubscriptionRegistry

/-! The routing state of a broker: who subscribes here, what is wanted from the
mesh because of it, and the links that are told. Each operation runs as the broker
thread runs it, its two locked sections together. -/
namespace Wisp

open EditLog

/-- A link this broker dialed, with the queues of the worker that serves it. -/
structure PeerLink where
  key : Str
  address : Str
  linkId : Str
  control : List Control
  encoded : List Envelope
  active : Bool
  deriving DecidableEq, Repr

def hexDigit (digit : UInt64) : UInt8 :=
  if digit < 10 then 48 + digit.toUInt8 else 87 + digit.toUInt8

/-- The routing id a link presents on the remote's ROUTER. -/
def peerLinkId (brokerId key : Str) : Str :=
  let hash := key.foldl (fun (hash : UInt64) c => (hash ^^^ c.toUInt64) * 1099511628211) 14695981039346656037
  let suffix := (List.range 8).map fun i => hexDigit ((hash >>> (60 - i * 4).toUInt64) &&& 15)
  str "BrokerLink-" ++ brokerId.take 8 ++ str "-" ++ suffix

structure Routing where
  subscriptions : SubscriptionRegistry
  interest : Interest
  peers : List PeerLink

namespace Routing

def empty : Routing := ⟨.empty,.empty,[]⟩

def pushControl (messages : List Control) (peers : List PeerLink) : List PeerLink :=
  peers.map fun link => { link with control := link.control ++ messages }

def noteMeshInterestChange (topic : Str) (wantedBefore : Bool) (r : Routing) : Routing :=
  let (interest,messages) :=
    r.interest.noteMeshInterestChange topic wantedBefore (r.subscriptions.hasMeshSubscriber topic)
  { r with interest, peers := pushControl messages r.peers }

def canSubscribe (clientId topic : Str) (r : Routing) : Bool :=
  match r.subscriptions.subscriptionsOf clientId with
  | none => true
  | some topics => decide (topic ∈ topics) || decide (topics.keys.length < maxSubscriptionsPerClient)

def subscribe (clientId topic : Str) (scope : Origin) (r : Routing) : Routing :=
  let wantedFromMesh := r.subscriptions.hasMeshSubscriber topic
  let (subscriptions,changed) := r.subscriptions.subscribe clientId topic scope
  if changed then noteMeshInterestChange topic wantedFromMesh { r with subscriptions } else r

def unsubscribe (clientId topic : Str) (r : Routing) : Routing :=
  let wantedFromMesh := r.subscriptions.hasMeshSubscriber topic
  let (subscriptions,existed) := r.subscriptions.unsubscribe clientId topic
  if existed then noteMeshInterestChange topic wantedFromMesh { r with subscriptions } else r

/-- The client's topics that are wanted from the mesh, taken before it is removed. -/
def meshTopics (clientId : Str) (r : Routing) : List Str :=
  (r.subscriptions.topicsOf clientId).keys.filter r.subscriptions.hasMeshSubscriber

def removeClient (clientId : Str) (r : Routing) : Routing :=
  (r.meshTopics clientId).foldl (fun r topic => r.noteMeshInterestChange topic true)
    { r with subscriptions := r.subscriptions.removeClient clientId }

/-- A second link under the same key or to the same address is discarded. -/
def addPeer (brokerId key address : Str) (r : Routing) : Routing :=
  if r.peers.any fun link => link.key == key || link.address == address then r
  else { r with peers := r.peers ++ [⟨key,address,peerLinkId brokerId key,
    .connect :: r.interest.sendInterestTo,[],true⟩] }

/-- A link's answer to a RESET from its remote. -/
def resendInterest (key : Str) (r : Routing) : Routing :=
  { r with peers := r.peers.map fun link =>
      if link.key = key then { link with control := link.control ++ r.interest.sendInterestTo } else link }

/-- Traffic added to the links' outgoing queues. -/
def forward (traffic : PeerLink → List Envelope) (r : Routing) : Routing :=
  { r with peers := r.peers.map fun link => { link with encoded := link.encoded ++ traffic link } }

@[simp] theorem pushControl_nil (peers : List PeerLink) : pushControl [] peers = peers := by
  simp [pushControl]

@[simp] theorem noteMeshInterestChange_subscriptions (topic : Str) (before : Bool) (r : Routing) :
    (r.noteMeshInterestChange topic before).subscriptions = r.subscriptions := rfl

@[simp] theorem noteMeshInterestChange_interest (topic : Str) (before : Bool) (r : Routing) :
    (r.noteMeshInterestChange topic before).interest = (r.interest.noteMeshInterestChange topic before
      (r.subscriptions.hasMeshSubscriber topic)).1 := rfl

@[simp] theorem noteMeshInterestChange_peers (topic : Str) (before : Bool) (r : Routing) :
    (r.noteMeshInterestChange topic before).peers = pushControl (r.interest.noteMeshInterestChange topic
      before (r.subscriptions.hasMeshSubscriber topic)).2 r.peers := rfl

@[simp] theorem forward_subscriptions (traffic : PeerLink → List Envelope) (r : Routing) :
    (r.forward traffic).subscriptions = r.subscriptions := rfl

@[simp] theorem forward_interest (traffic : PeerLink → List Envelope) (r : Routing) :
    (r.forward traffic).interest = r.interest := rfl

theorem mem_forward (traffic : PeerLink → List Envelope) (r : Routing) (link : PeerLink) :
    link ∈ (r.forward traffic).peers ↔
      ∃ old ∈ r.peers, { old with encoded := old.encoded ++ traffic old } = link :=
  List.mem_map

/-- The registry is consistent and the interest is what its subscribers want from the mesh. -/
structure Valid (r : Routing) : Prop where
  consistent : r.subscriptions.Consistent
  tracks : r.interest.Tracks fun topic => r.subscriptions.hasMeshSubscriber topic = true

/-- Every link is in step, given what the remote at its address holds for it. -/
def Mirrors (base : Str → Str → Finset Str) (r : Routing) : Prop :=
  ∀ link ∈ r.peers, r.interest.Mirrored (base link.address link.linkId) link.control

theorem empty_valid : Valid empty :=
  ⟨SubscriptionRegistry.empty_consistent,by
    constructor <;> simp [empty,Interest.empty,SubscriptionRegistry.empty,
      SubscriptionRegistry.hasMeshSubscriber,SubscriptionRegistry.subscribersOf]⟩

theorem noteMeshInterestChange_mirrors (mirrors : Mirrors base r) (topic : Str) (before : Bool) :
    Mirrors base (r.noteMeshInterestChange topic before) := by
  intro link member
  obtain ⟨old,listed,rfl⟩ := List.mem_map.mp member
  exact (mirrors old listed).changed topic before _

/-- The registry changed at one topic, and its answer from before is passed on. -/
theorem noteMeshInterestChange_valid {r : Routing} {subscriptions : SubscriptionRegistry}
    (valid : Valid r) (consistent : subscriptions.Consistent) (topic : Str)
    (others : ∀ t, t ≠ topic → ∀ clientId,
      subscriptions.scopeOf clientId t = r.subscriptions.scopeOf clientId t) :
    Valid (noteMeshInterestChange topic (r.subscriptions.hasMeshSubscriber topic)
      { r with subscriptions }) := by
  refine ⟨consistent,?_⟩
  refine (valid.tracks.changed topic _ _ Iff.rfl).congr fun t => ?_
  by_cases here : t = topic
  · subst here; simp
  · simp [here,SubscriptionRegistry.hasMeshSubscriber_congr valid.consistent consistent (others t here)]

theorem subscribe_valid (valid : Valid r) (clientId topic : Str) (scope : Origin) :
    Valid (r.subscribe clientId topic scope) := by
  unfold subscribe
  dsimp only
  split
  · refine noteMeshInterestChange_valid valid
      (SubscriptionRegistry.subscribe_consistent valid.consistent clientId topic scope) topic ?_
    intro t different other
    simp [SubscriptionRegistry.scopeOf_subscribe,different]
  · exact valid

theorem unsubscribe_valid (valid : Valid r) (clientId topic : Str) :
    Valid (r.unsubscribe clientId topic) := by
  unfold unsubscribe
  dsimp only
  split
  · refine noteMeshInterestChange_valid valid
      (SubscriptionRegistry.unsubscribe_consistent valid.consistent clientId topic) topic ?_
    intro t different other
    simp [SubscriptionRegistry.scopeOf_unsubscribe,different]
  · exact valid

@[simp] theorem foldl_note_subscriptions (topics : List Str) (r : Routing) :
    (topics.foldl (fun r topic => r.noteMeshInterestChange topic true) r).subscriptions =
      r.subscriptions := by
  induction topics generalizing r with
  | nil => rfl
  | cons topic rest ih => exact ih _

theorem foldl_note_mirrors (topics : List Str) (mirrors : Mirrors base r) :
    Mirrors base (topics.foldl (fun r topic => r.noteMeshInterestChange topic true) r) := by
  induction topics generalizing r with
  | nil => exact mirrors
  | cons topic rest ih => exact ih (noteMeshInterestChange_mirrors mirrors topic true)

/-- Topics still to be revisited keep the answer from before the client went. -/
theorem foldl_note_tracks (topics : List Str) {r : Routing} {wants : Str → Prop} (distinct : topics.Nodup)
    (wanted : ∀ topic ∈ topics, wants topic) (tracks : r.interest.Tracks wants) :
    (topics.foldl (fun r topic => r.noteMeshInterestChange topic true) r).interest.Tracks
      (fun t => if t ∈ topics then r.subscriptions.hasMeshSubscriber t = true else wants t) := by
  induction topics generalizing r wants with
  | nil => simpa using tracks
  | cons topic rest ih =>
    obtain ⟨fresh,distinct⟩ := List.nodup_cons.mp distinct
    have first := tracks.changed topic true (r.subscriptions.hasMeshSubscriber topic)
      (by simp [wanted topic List.mem_cons_self])
    have others : ∀ t ∈ rest, if t = topic then r.subscriptions.hasMeshSubscriber topic = true else wants t := by
      intro t member
      rw [if_neg (by rintro rfl; exact fresh member)]
      exact wanted t (List.mem_cons_of_mem _ member)
    refine (ih distinct others first).congr fun t => ?_
    by_cases here : t = topic
    · subst here; simp [fresh]
    · simp [here]

theorem removeClient_subscriptions (clientId : Str) (r : Routing) :
    (r.removeClient clientId).subscriptions = r.subscriptions.removeClient clientId :=
  foldl_note_subscriptions _ _

/-- A topic that is not revisited was not the client's, or nobody wanted it from the mesh before. -/
theorem removeClient_unlisted {r : Routing} (consistent : r.subscriptions.Consistent) {clientId topic : Str}
    (skipped : topic ∉ r.meshTopics clientId) :
    (r.subscriptions.removeClient clientId).hasMeshSubscriber topic = true ↔
      r.subscriptions.hasMeshSubscriber topic = true := by
  rw [SubscriptionRegistry.hasMeshSubscriber_iff (SubscriptionRegistry.removeClient_consistent consistent clientId),
    SubscriptionRegistry.hasMeshSubscriber_iff consistent]
  constructor
  · rintro ⟨other,scope,held,accepts⟩
    rw [SubscriptionRegistry.scopeOf_removeClient] at held
    split at held
    · simp at held
    · exact ⟨other,scope,held,accepts⟩
  · rintro ⟨other,scope,held,accepts⟩
    refine ⟨other,scope,?_,accepts⟩
    rw [SubscriptionRegistry.scopeOf_removeClient,if_neg,held]
    rintro rfl
    refine skipped (List.mem_filter.mpr ⟨?_,?_⟩)
    · exact AList.mem_keys.mp (AList.lookup_isSome.mp (by
        rw [SubscriptionRegistry.scopeOf] at held; simp [held]))
    · exact (SubscriptionRegistry.hasMeshSubscriber_iff consistent topic).mpr ⟨_,scope,held,accepts⟩

theorem meshTopics_nodup (clientId : Str) (r : Routing) : (r.meshTopics clientId).Nodup :=
  (AList.keys_nodup _).filter _

theorem removeClient_valid (valid : Valid r) (clientId : Str) : Valid (r.removeClient clientId) := by
  have consistent := SubscriptionRegistry.removeClient_consistent valid.consistent clientId
  refine ⟨by rwa [removeClient_subscriptions],?_⟩
  rw [removeClient_subscriptions]
  have wanted : ∀ t ∈ r.meshTopics clientId, r.subscriptions.hasMeshSubscriber t = true :=
    fun t member => (List.mem_filter.mp member).2
  have tracks : ({ r with subscriptions := r.subscriptions.removeClient clientId } : Routing).interest.Tracks
      fun t => r.subscriptions.hasMeshSubscriber t = true := valid.tracks
  refine (foldl_note_tracks _ (r.meshTopics_nodup clientId) wanted tracks).congr fun t => ?_
  split
  · rfl
  next skipped => exact removeClient_unlisted valid.consistent skipped

theorem subscribe_scopes (clientId topic : Str) (scope : Origin) (r : Routing) (other t : Str) :
    (r.subscribe clientId topic scope).subscriptions.scopeOf other t =
      if other = clientId ∧ t = topic then some scope else r.subscriptions.scopeOf other t := by
  rw [← SubscriptionRegistry.scopeOf_subscribe]
  unfold subscribe
  dsimp only
  split
  · rfl
  next unchanged =>
    rw [SubscriptionRegistry.subscribe_unchanged _ _ _ _ (Bool.eq_false_iff.mpr unchanged)]

theorem unsubscribe_scopes (clientId topic : Str) (r : Routing) (other t : Str) :
    (r.unsubscribe clientId topic).subscriptions.scopeOf other t =
      if other = clientId ∧ t = topic then none else r.subscriptions.scopeOf other t := by
  rw [← SubscriptionRegistry.scopeOf_unsubscribe]
  unfold unsubscribe
  dsimp only
  split
  · rfl
  next unchanged =>
    rw [SubscriptionRegistry.unsubscribe_unchanged _ _ _ (Bool.eq_false_iff.mpr unchanged)]

theorem removeClient_scopes (clientId : Str) (r : Routing) (other t : Str) :
    (r.removeClient clientId).subscriptions.scopeOf other t =
      if other = clientId then none else r.subscriptions.scopeOf other t := by
  rw [removeClient_subscriptions,SubscriptionRegistry.scopeOf_removeClient]

/-- A remote takes every topic from a link that holds as few as a link can. -/
theorem canSubscribe_of_small (remote : Routing) (linkId topic : Str)
    (small : (remote.subscriptions.held linkId).card ≤ maxInterestTopics + 2) :
    remote.canSubscribe linkId topic = true := by
  have count := remote.subscriptions.held_card linkId
  unfold canSubscribe SubscriptionRegistry.subscriptionsOf
  cases entry : remote.subscriptions.clientTopics.lookup linkId with
  | none => rfl
  | some topics =>
    have same : remote.subscriptions.topicsOf linkId = topics := by
      simp [SubscriptionRegistry.topicsOf,entry]
    rw [same] at count
    have room : topics.keys.length < maxSubscriptionsPerClient := by
      rw [← count]
      exact Nat.lt_of_le_of_lt small (by decide)
    simp [room]

theorem subscribe_mirrors (mirrors : Mirrors base r) (clientId topic : Str) (scope : Origin) :
    Mirrors base (r.subscribe clientId topic scope) := by
  unfold subscribe
  dsimp only
  split
  · apply noteMeshInterestChange_mirrors
    exact mirrors
  · exact mirrors

theorem unsubscribe_mirrors (mirrors : Mirrors base r) (clientId topic : Str) :
    Mirrors base (r.unsubscribe clientId topic) := by
  unfold unsubscribe
  dsimp only
  split
  · apply noteMeshInterestChange_mirrors
    exact mirrors
  · exact mirrors

theorem removeClient_mirrors (mirrors : Mirrors base r) (clientId : Str) :
    Mirrors base (r.removeClient clientId) := by
  apply foldl_note_mirrors
  exact mirrors

/-- A topic a SUBSCRIBE is not refused for. -/
def TopicFits (topic : Str) : Prop := topic ≠ [] ∧ topic.length ≤ maxTopicLengthBytes

/-- A property that clients and links going away keep. -/
structure Shedding (property : Routing → Prop) : Prop where
  removeClient : ∀ r clientId, property r → property (r.removeClient clientId)
  dropLinks : ∀ r keep, property r → property { r with peers := r.peers.filter keep }

/-- A property that every change of subscriptions keeps. -/
structure Turning (property : Routing → Prop) : Prop extends Shedding property where
  subscribe : ∀ r clientId topic scope, TopicFits topic → property r → property (r.subscribe clientId topic scope)
  unsubscribe : ∀ r clientId topic, property r → property (r.unsubscribe clientId topic)

/-- A property of the routing state that every part of processing a message keeps. -/
structure Closed (property : Routing → Prop) : Prop extends Turning property where
  forward : ∀ r traffic, (∀ link, ∀ env ∈ traffic link, Keys.isReservedKey env.header.handlerKey = false) →
    property r → property (r.forward traffic)

theorem Closed.and {property other : Routing → Prop} (first : Closed property) (second : Closed other) :
    Closed fun r => property r ∧ other r where
  removeClient r clientId := And.imp (first.removeClient r clientId) (second.removeClient r clientId)
  dropLinks r keep := And.imp (first.dropLinks r keep) (second.dropLinks r keep)
  subscribe r clientId topic scope fits :=
    And.imp (first.subscribe r clientId topic scope fits) (second.subscribe r clientId topic scope fits)
  unsubscribe r clientId topic := And.imp (first.unsubscribe r clientId topic) (second.unsubscribe r clientId topic)
  forward r traffic application :=
    And.imp (first.forward r traffic application) (second.forward r traffic application)

theorem mirrors_closed (base : Str → Str → Finset Str) : Closed (Mirrors base) where
  removeClient _ clientId mirrors := removeClient_mirrors mirrors clientId
  dropLinks _ _ mirrors link member := mirrors link (List.mem_of_mem_filter member)
  subscribe _ clientId topic scope _ mirrors := subscribe_mirrors mirrors clientId topic scope
  unsubscribe _ clientId topic mirrors := unsubscribe_mirrors mirrors clientId topic
  forward r traffic _ mirrors link member := by
    obtain ⟨old,listed,rfl⟩ := (mem_forward traffic r link).mp member
    exact mirrors old listed

/-- A property of single links that interest updates keep. -/
theorem everyLink_told (P : PeerLink → Prop)
    (push : ∀ link messages, Interest.Tells messages → P link → P { link with control := link.control ++ messages }) :
    Turning fun r => ∀ link ∈ r.peers, P link := by
  have noted (r : Routing) (topic : Str) (before : Bool) (every : ∀ link ∈ r.peers, P link) :
      ∀ link ∈ (r.noteMeshInterestChange topic before).peers, P link := by
    intro link member
    obtain ⟨old,listed,rfl⟩ := List.mem_map.mp member
    exact push old _ (Interest.noteMeshInterestChange_tells _ _ _ _) (every old listed)
  refine ⟨⟨?_,fun r keep every link member => every link (List.mem_of_mem_filter member)⟩,?_,?_⟩
  · intro r clientId every
    have all (topics : List Str) {r : Routing} (every : ∀ link ∈ r.peers, P link) :
        ∀ link ∈ (topics.foldl (fun r topic => r.noteMeshInterestChange topic true) r).peers, P link := by
      induction topics generalizing r with
      | nil => exact every
      | cons topic rest ih => exact ih (noted r topic true every)
    exact all _ every
  · intro r clientId topic scope _ every
    unfold subscribe
    dsimp only
    split
    · exact noted _ topic _ every
    · exact every
  · intro r clientId topic every
    unfold unsubscribe
    dsimp only
    split
    · exact noted _ topic _ every
    · exact every

theorem everyLink_turning (P : PeerLink → Prop)
    (push : ∀ link messages, P link → P { link with control := link.control ++ messages }) :
    Turning fun r => ∀ link ∈ r.peers, P link :=
  everyLink_told P fun link messages _ => push link messages

/-- A property of single links that longer queues keep. -/
theorem everyLink_closed (P : PeerLink → Prop)
    (push : ∀ link messages, P link → P { link with control := link.control ++ messages })
    (enqueue : ∀ link traffic, P link → P { link with encoded := link.encoded ++ traffic }) :
    Closed fun r => ∀ link ∈ r.peers, P link := by
  refine ⟨everyLink_turning P push,fun r traffic _ every link member => ?_⟩
  obtain ⟨old,listed,rfl⟩ := (mem_forward traffic r link).mp member
  exact enqueue old _ (every old listed)

/-- The link lost what was taken from its queues, or was told to stop. -/
structure Shrinks (link link' : PeerLink) : Prop where
  key : link'.key = link.key
  address : link'.address = link.address
  linkId : link'.linkId = link.linkId
  control : link'.control <:+ link.control
  encoded : link'.encoded <:+ link.encoded

def mapLink (key : Str) (f : PeerLink → PeerLink) (r : Routing) : Routing :=
  { r with peers := r.peers.map fun link => if link.key = key then f link else link }

/-- A property that everything a broker and its links' workers do keeps. -/
structure Upheld (property : Routing → Prop) : Prop extends Closed property where
  mapLink : ∀ r key f, (∀ link, Shrinks link (f link)) → property r → property (r.mapLink key f)
  addPeer : ∀ r brokerId key address, property r → property (r.addPeer brokerId key address)
  resendInterest : ∀ r key, property r → property (r.resendInterest key)

theorem addPeer_subscriptions (brokerId key address : Str) (r : Routing) :
    (r.addPeer brokerId key address).subscriptions = r.subscriptions ∧
      (r.addPeer brokerId key address).interest = r.interest := by
  unfold addPeer
  split <;> exact ⟨rfl,rfl⟩

theorem addPeer_unknown {brokerId key address : Str} {r : Routing}
    (unknown : ∀ link ∈ r.peers, link.key ≠ key ∧ link.address ≠ address) :
    r.addPeer brokerId key address = { r with peers := r.peers ++ [⟨key,address,peerLinkId brokerId key,
      .connect :: r.interest.sendInterestTo,[],true⟩] } := by
  refine if_neg ?_
  simpa [List.any_eq_true] using unknown

theorem valid_upheld : Upheld Valid where
  subscribe _ clientId topic scope _ valid := subscribe_valid valid clientId topic scope
  unsubscribe _ clientId topic valid := unsubscribe_valid valid clientId topic
  removeClient _ clientId valid := removeClient_valid valid clientId
  forward _ _ _ valid := ⟨valid.consistent,valid.tracks⟩
  dropLinks _ _ valid := ⟨valid.consistent,valid.tracks⟩
  mapLink _ _ _ _ valid := ⟨valid.consistent,valid.tracks⟩
  addPeer r brokerId key address valid := by
    obtain ⟨subscriptions,interest⟩ := addPeer_subscriptions brokerId key address r
    exact ⟨subscriptions ▸ valid.consistent,by rw [interest,subscriptions]; exact valid.tracks⟩
  resendInterest _ _ valid := ⟨valid.consistent,valid.tracks⟩

end Routing

end Wisp
