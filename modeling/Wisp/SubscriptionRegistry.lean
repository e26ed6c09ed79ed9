import Mathlib.Data.List.AList
import Mathlib.Data.Finset.Card
import Wisp.MessageKeys

/-! The two-way client/topic mapping of the broker. An unordered map is an
association list with distinct keys; nothing here depends on its order. The
abstraction is the finite map `scopeOf` from a client and a topic to a scope. -/
namespace Wisp

structure Subscriber where
  clientId : Str
  scope : Origin
  deriving DecidableEq, Repr

abbrev TopicMap := AList fun _ : Str => Origin
abbrev SubscriberMap := AList fun _ : Str => List Subscriber

structure SubscriptionRegistry where
  clientTopics : AList fun _ : Str => TopicMap
  topicSubscribers : SubscriberMap

namespace SubscriptionRegistry

def empty : SubscriptionRegistry := ⟨∅,∅⟩

/-- `*pos = subs.back(); subs.pop_back();` when `pos` is a position of the vector. -/
def swapRemove (pos : Nat) (subs : List Subscriber) : List Subscriber :=
  match subs.getLast? with
  | none => subs
  | some back => if pos < subs.length then (subs.set pos back).dropLast else subs

def position (clientId : Str) (subs : List Subscriber) : Nat :=
  subs.findIdx fun subscriber => subscriber.clientId == clientId

def dropSubscriber (topic clientId : Str) (map : SubscriberMap) : SubscriberMap :=
  match map.lookup topic with
  | none => map
  | some subs =>
    let rest := swapRemove (position clientId subs) subs
    if rest.isEmpty then map.erase topic else map.insert topic rest

/-- The scope of a held subscription is changed where its subscriber stands. -/
def setScope (topic clientId : Str) (scope : Origin) (map : SubscriberMap) : SubscriberMap :=
  match map.lookup topic with
  | none => map
  | some subs => map.insert topic (subs.set (position clientId subs) ⟨clientId,scope⟩)

/-- `m_clientTopics[clientId]`, which makes an empty entry where there is none. -/
def topicsOf (clientId : Str) (r : SubscriptionRegistry) : TopicMap :=
  (r.clientTopics.lookup clientId).getD ∅

/-- The vector of a topic, empty when the topic has no entry. -/
def listed (map : SubscriberMap) (topic : Str) : List Subscriber := (map.lookup topic).getD []

def subscribe (clientId topic : Str) (scope : Origin) (r : SubscriptionRegistry) :
    SubscriptionRegistry × Bool :=
  match (r.topicsOf clientId).lookup topic with
  | none =>
    (⟨r.clientTopics.insert clientId ((r.topicsOf clientId).insert topic scope),
      r.topicSubscribers.insert topic (listed r.topicSubscribers topic ++ [⟨clientId,scope⟩])⟩,true)
  | some held =>
    if held = scope then (r,false)
    else (⟨r.clientTopics.insert clientId ((r.topicsOf clientId).insert topic scope),
      setScope topic clientId scope r.topicSubscribers⟩,true)

def unsubscribe (clientId topic : Str) (r : SubscriptionRegistry) : SubscriptionRegistry × Bool :=
  match r.clientTopics.lookup clientId with
  | none => (r,false)
  | some topics =>
    if topic ∈ topics then
      let rest := topics.erase topic
      (⟨if rest.keys.isEmpty then r.clientTopics.erase clientId else r.clientTopics.insert clientId rest,
        dropSubscriber topic clientId r.topicSubscribers⟩,true)
    else (r,false)

def removeClient (clientId : Str) (r : SubscriptionRegistry) : SubscriptionRegistry :=
  match r.clientTopics.lookup clientId with
  | none => r
  | some topics =>
    ⟨r.clientTopics.erase clientId,
      topics.keys.foldl (fun map topic => dropSubscriber topic clientId map) r.topicSubscribers⟩

def subscribersOf (topic : Str) (r : SubscriptionRegistry) : Option (List Subscriber) :=
  r.topicSubscribers.lookup topic

def subscriptionsOf (clientId : Str) (r : SubscriptionRegistry) : Option TopicMap :=
  r.clientTopics.lookup clientId

def hasMeshSubscriber (topic : Str) (r : SubscriptionRegistry) : Bool :=
  match r.subscribersOf topic with
  | none => false
  | some subs => subs.any fun subscriber => scopeAccepts subscriber.scope false

/-- The finite map the two sides represent. -/
def scopeOf (r : SubscriptionRegistry) (clientId topic : Str) : Option Origin :=
  (r.topicsOf clientId).lookup topic

/-- One subscriber entry per client, and no vector kept empty. -/
structure Proper (map : SubscriberMap) : Prop where
  single : ∀ topic, ((listed map topic).map Subscriber.clientId).Nodup
  occupied : ∀ topic subs, map.lookup topic = some subs → subs ≠ []

/-- Both maps hold the same triples, and neither keeps an empty entry. -/
structure Consistent (r : SubscriptionRegistry) : Prop where
  proper : Proper r.topicSubscribers
  agree : ∀ clientId topic scope, r.scopeOf clientId topic = some scope ↔
    ⟨clientId,scope⟩ ∈ listed r.topicSubscribers topic
  holding : ∀ clientId topics, r.clientTopics.lookup clientId = some topics → topics.keys ≠ []

theorem swapRemove_perm (pos : Nat) (subs : List Subscriber) (bound : pos < subs.length) :
    (swapRemove pos subs).Perm (subs.eraseIdx pos) := by
  obtain ⟨front,x,rear,rfl,rfl⟩ : ∃ front x rear, subs = front ++ x :: rear ∧ front.length = pos := by
    refine ⟨subs.take pos,subs[pos],subs.drop (pos + 1),by simp,by simp; omega⟩
  have erased : (front ++ x :: rear).eraseIdx front.length = front ++ rear := by
    rw [List.eraseIdx_append_of_length_le (Nat.le_refl _),Nat.sub_self,List.eraseIdx_cons_zero]
  rw [erased]
  rcases List.eq_nil_or_concat' rear with rfl | ⟨middle,last,rfl⟩
  · simp [swapRemove]
  · have back : (front ++ x :: (middle ++ [last])).getLast? = some last := by
      rw [← List.cons_append,← List.append_assoc,List.getLast?_concat]
    have swapped : swapRemove front.length (front ++ x :: (middle ++ [last])) =
        front ++ last :: middle := by
      simp only [swapRemove,back]
      rw [if_pos bound,List.set_append_right _ _ (Nat.le_refl _),Nat.sub_self,List.set_cons_zero,
        ← List.cons_append,← List.append_assoc,List.dropLast_concat]
    rw [swapped]
    exact (List.perm_append_singleton last middle).symm.append_left front

theorem eraseIdx_position (clientId : Str) (subs : List Subscriber)
    (single : (subs.map Subscriber.clientId).Nodup) :
    subs.eraseIdx (position clientId subs) = subs.filter fun s => s.clientId ≠ clientId := by
  induction subs with
  | nil => rfl
  | cons x rest ih =>
    obtain ⟨fresh,tail⟩ := List.nodup_cons.mp single
    by_cases here : x.clientId = clientId
    · have others : ∀ s ∈ rest, s.clientId ≠ clientId := by
        rintro s member rfl
        exact fresh (here ▸ List.mem_map_of_mem member)
      simp only [position,List.findIdx_cons,here,beq_self_eq_true,cond_true,List.eraseIdx_cons_zero,
        ne_eq,not_true_eq_false,decide_false,Bool.false_eq_true,not_false_eq_true,
        List.filter_cons_of_neg]
      exact (List.filter_eq_self.mpr fun s member => by simpa using others s member).symm
    · have shift : position clientId (x :: rest) = position clientId rest + 1 := by
        simp only [position,List.findIdx_cons,beq_eq_false_iff_ne.mpr here,cond_false]
      rw [shift,List.eraseIdx_cons_succ,ih tail]
      simp [here]

theorem position_lt (clientId : Str) (subs : List Subscriber) :
    position clientId subs < subs.length ↔ ∃ s ∈ subs, s.clientId = clientId := by
  simp [position,List.findIdx_lt_length]

/-- Taking a client off a topic's vector leaves the other subscribers, in some order. -/
theorem swapRemove_position_perm (clientId : Str) (subs : List Subscriber)
    (single : (subs.map Subscriber.clientId).Nodup) :
    (swapRemove (position clientId subs) subs).Perm (subs.filter fun s => s.clientId ≠ clientId) := by
  by_cases bound : position clientId subs < subs.length
  · exact (swapRemove_perm _ _ bound).trans (.of_eq (eraseIdx_position clientId subs single))
  · have absent : ∀ s ∈ subs, s.clientId ≠ clientId := by
      intro s member same
      exact bound ((position_lt clientId subs).mpr ⟨s,member,same⟩)
    have unchanged : swapRemove (position clientId subs) subs = subs := by
      unfold swapRemove
      split
      · rfl
      · rw [if_neg bound]
    rw [unchanged,List.filter_eq_self.mpr (by simpa using absent)]

/-- Replacing a subscriber where it stands changes its scope alone. -/
theorem set_position (clientId : Str) (scope : Origin) (subs : List Subscriber)
    (single : (subs.map Subscriber.clientId).Nodup) :
    subs.set (position clientId subs) ⟨clientId,scope⟩ =
      subs.map fun s => if s.clientId = clientId then ⟨clientId,scope⟩ else s := by
  induction subs with
  | nil => rfl
  | cons x rest ih =>
    obtain ⟨fresh,tail⟩ := List.nodup_cons.mp single
    by_cases here : x.clientId = clientId
    · have others : ∀ s ∈ rest, s.clientId ≠ clientId := by
        rintro s member rfl
        exact fresh (here ▸ List.mem_map_of_mem member)
      have first : position clientId (x :: rest) = 0 := by
        simp only [position,List.findIdx_cons,here,beq_self_eq_true,cond_true]
      rw [first,List.set_cons_zero,List.map_cons,if_pos here]
      congr 1
      exact (List.map_id'' (by intro s; rfl) rest).symm.trans
        (List.map_congr_left fun s member => (if_neg (others s member)).symm)
    · have shift : position clientId (x :: rest) = position clientId rest + 1 := by
        simp only [position,List.findIdx_cons,beq_eq_false_iff_ne.mpr here,cond_false]
      rw [shift,List.set_cons_succ,ih tail,List.map_cons,if_neg here]

theorem listed_insert (map : SubscriberMap) (topic other : Str) (subs : List Subscriber) :
    listed (map.insert topic subs) other = if other = topic then subs else listed map other := by
  by_cases same : other = topic
  · subst same; simp [listed]
  · simp [listed,AList.lookup_insert_ne same,same]

theorem listed_erase (map : SubscriberMap) (topic other : Str) :
    listed (map.erase topic) other = if other = topic then [] else listed map other := by
  by_cases same : other = topic
  · subst same; simp [listed]
  · simp [listed,AList.lookup_erase_ne same,same]

theorem listed_dropSubscriber (map : SubscriberMap) (topic clientId other : Str) (proper : Proper map) :
    (listed (dropSubscriber topic clientId map) other).Perm
      (if other = topic then (listed map topic).filter fun s => s.clientId ≠ clientId
        else listed map other) := by
  unfold dropSubscriber
  cases found : map.lookup topic with
  | none =>
    by_cases same : other = topic
    · subst same; simp [listed,found]
    · simp [same]
  | some subs =>
    have entry : listed map topic = subs := by simp [listed,found]
    have kept := swapRemove_position_perm clientId subs (entry ▸ proper.single topic)
    rw [entry]
    dsimp only
    split
    next emptied =>
      rw [listed_erase]
      split
      · rw [List.isEmpty_iff.mp emptied] at kept
        exact kept
      · exact .refl _
    next => 
      rw [listed_insert]
      split
      · exact kept
      · exact .refl _

theorem lookup_dropSubscriber_ne (map : SubscriberMap) (topic clientId other : Str)
    (different : other ≠ topic) :
    (dropSubscriber topic clientId map).lookup other = map.lookup other := by
  unfold dropSubscriber
  cases map.lookup topic with
  | none => rfl
  | some subs =>
    dsimp only
    split
    · exact AList.lookup_erase_ne different
    · exact AList.lookup_insert_ne different

theorem dropSubscriber_proper (map : SubscriberMap) (topic clientId : Str) (proper : Proper map) :
    Proper (dropSubscriber topic clientId map) := by
  constructor
  · intro other
    have same := (listed_dropSubscriber map topic clientId other proper).map Subscriber.clientId
    refine same.nodup_iff.mpr ?_
    split
    · exact (proper.single topic).sublist (List.filter_sublist.map _)
    · exact proper.single other
  · intro other subs found
    by_cases same : other = topic
    · subst same
      unfold dropSubscriber at found
      cases held : map.lookup other with
      | none => simp [held] at found
      | some old =>
        simp only [held] at found
        split at found
        · simp at found
        next remains =>
          rw [AList.lookup_insert,Option.some.injEq] at found
          subst found
          simpa using remains
    · rw [lookup_dropSubscriber_ne _ _ _ _ same] at found
      exact proper.occupied other subs found

theorem foldl_drop_proper (clientId : Str) (topics : List Str) (map : SubscriberMap) (proper : Proper map) :
    Proper (topics.foldl (fun map topic => dropSubscriber topic clientId map) map) := by
  induction topics generalizing map with
  | nil => exact proper
  | cons topic rest ih => exact ih _ (dropSubscriber_proper map topic clientId proper)

theorem mem_foldl_drop (clientId : Str) (topics : List Str) (map : SubscriberMap) (proper : Proper map)
    (other : Str) (x : Subscriber) :
    x ∈ listed (topics.foldl (fun map topic => dropSubscriber topic clientId map) map) other ↔
      x ∈ listed map other ∧ ¬(other ∈ topics ∧ x.clientId = clientId) := by
  induction topics generalizing map with
  | nil => simp
  | cons topic rest ih =>
    rw [List.foldl_cons,ih _ (dropSubscriber_proper map topic clientId proper),
      (listed_dropSubscriber map topic clientId other proper).mem_iff]
    by_cases same : other = topic
    · subst same
      simp only [↓reduceIte,List.mem_filter,ne_eq,decide_eq_true_eq,List.mem_cons,true_or,true_and]
      constructor
      · exact fun held => held.1
      · exact fun held => ⟨held,fun both => held.2 both.2⟩
    · simp [same]

/-- Storing a client's topic map changes that client's scopes alone. -/
theorem scopeOf_store (r : SubscriptionRegistry) (map : SubscriberMap) (clientId : Str)
    (topics : TopicMap) (other topic : Str) :
    scopeOf ⟨r.clientTopics.insert clientId topics,map⟩ other topic =
      if other = clientId then topics.lookup topic else r.scopeOf other topic := by
  by_cases same : other = clientId
  · subst same; simp [scopeOf,topicsOf]
  · simp [scopeOf,topicsOf,AList.lookup_insert_ne same,same]

theorem scopeOf_forget (r : SubscriptionRegistry) (map : SubscriberMap) (clientId other topic : Str) :
    scopeOf ⟨r.clientTopics.erase clientId,map⟩ other topic =
      if other = clientId then none else r.scopeOf other topic := by
  by_cases same : other = clientId
  · subst same; simp [scopeOf,topicsOf]
  · simp [scopeOf,topicsOf,AList.lookup_erase_ne same,same]

theorem lookup_insert_topic (topics : TopicMap) (topic other : Str) (scope : Origin) :
    (topics.insert topic scope).lookup other = if other = topic then some scope else topics.lookup other := by
  by_cases same : other = topic
  · subst same; simp
  · simp [AList.lookup_insert_ne same,same]

theorem lookup_erase_topic (topics : TopicMap) (topic other : Str) :
    (topics.erase topic).lookup other = if other = topic then none else topics.lookup other := by
  by_cases same : other = topic
  · subst same; simp
  · simp [AList.lookup_erase_ne same,same]

theorem scopeOf_subscribe (r : SubscriptionRegistry) (clientId topic : Str) (scope : Origin)
    (other topic' : Str) :
    (r.subscribe clientId topic scope).1.scopeOf other topic' =
      if other = clientId ∧ topic' = topic then some scope else r.scopeOf other topic' := by
  unfold subscribe
  cases held : (r.topicsOf clientId).lookup topic with
  | none =>
    dsimp only
    rw [scopeOf_store,lookup_insert_topic]
    by_cases same : other = clientId
    · subst same; simp [scopeOf]
    · simp [same]
  | some old =>
    dsimp only
    split
    next unchanged =>
      by_cases same : other = clientId ∧ topic' = topic
      · obtain ⟨rfl,rfl⟩ := same
        simp [scopeOf,held,unchanged]
      · simp [same]
    next =>
      rw [scopeOf_store,lookup_insert_topic]
      by_cases same : other = clientId
      · subst same; simp [scopeOf]
      · simp [same]

theorem subscribe_changed (r : SubscriptionRegistry) (clientId topic : Str) (scope : Origin) :
    (r.subscribe clientId topic scope).2 = true ↔ r.scopeOf clientId topic ≠ some scope := by
  unfold subscribe scopeOf
  cases held : (r.topicsOf clientId).lookup topic with
  | none => simp
  | some old => by_cases same : old = scope <;> simp [same]

theorem subscribe_unchanged (r : SubscriptionRegistry) (clientId topic : Str) (scope : Origin)
    (unchanged : (r.subscribe clientId topic scope).2 = false) :
    (r.subscribe clientId topic scope).1 = r := by
  unfold subscribe at unchanged ⊢
  cases held : (r.topicsOf clientId).lookup topic with
  | none => simp [held] at unchanged
  | some old => by_cases same : old = scope <;> simp_all

/-- A client whose last topic goes loses its entry, which reads as holding nothing. -/
theorem scopeOf_unsubscribe (r : SubscriptionRegistry) (clientId topic other topic' : Str) :
    (r.unsubscribe clientId topic).1.scopeOf other topic' =
      if other = clientId ∧ topic' = topic then none else r.scopeOf other topic' := by
  unfold unsubscribe
  cases held : r.clientTopics.lookup clientId with
  | none =>
    by_cases same : other = clientId
    · subst same; simp [scopeOf,topicsOf,held]
    · simp [same]
  | some topics =>
    have own (t : Str) : r.scopeOf clientId t = topics.lookup t := by simp [scopeOf,topicsOf,held]
    have store (map : SubscriberMap) : scopeOf ⟨if (topics.erase topic).keys.isEmpty then
        r.clientTopics.erase clientId else r.clientTopics.insert clientId (topics.erase topic),map⟩
          other topic' = if other = clientId then (topics.erase topic).lookup topic'
            else r.scopeOf other topic' := by
      split
      next emptied =>
        have gone : (topics.erase topic).lookup topic' = none := by
          rw [AList.lookup_eq_none,AList.mem_keys,List.isEmpty_iff.mp emptied]
          exact List.not_mem_nil
        rw [scopeOf_forget,gone]
      next => exact scopeOf_store r _ clientId _ other topic'
    dsimp only
    split
    next member =>
      rw [store,lookup_erase_topic]
      by_cases same : other = clientId
      · subst same; simp [own]
      · simp [same]
    next absent =>
      by_cases same : other = clientId ∧ topic' = topic
      · obtain ⟨rfl,rfl⟩ := same
        simpa [own] using AList.lookup_eq_none.mpr absent
      · simp [same]

theorem unsubscribe_changed (r : SubscriptionRegistry) (clientId topic : Str) :
    (r.unsubscribe clientId topic).2 = true ↔ r.scopeOf clientId topic ≠ none := by
  unfold unsubscribe scopeOf topicsOf
  cases held : r.clientTopics.lookup clientId with
  | none => simp
  | some topics =>
    by_cases member : topic ∈ topics
    · simpa [member,← Option.isSome_iff_ne_none] using AList.lookup_isSome.mpr member
    · simpa [member] using AList.lookup_eq_none.mpr member

theorem unsubscribe_unchanged (r : SubscriptionRegistry) (clientId topic : Str)
    (unchanged : (r.unsubscribe clientId topic).2 = false) : (r.unsubscribe clientId topic).1 = r := by
  unfold unsubscribe at unchanged ⊢
  cases held : r.clientTopics.lookup clientId with
  | none => rfl
  | some topics => by_cases member : topic ∈ topics <;> simp_all

theorem scopeOf_removeClient (r : SubscriptionRegistry) (clientId other topic : Str) :
    (r.removeClient clientId).scopeOf other topic =
      if other = clientId then none else r.scopeOf other topic := by
  unfold removeClient
  cases held : r.clientTopics.lookup clientId with
  | none =>
    by_cases same : other = clientId
    · subst same; simp [scopeOf,topicsOf,held]
    · simp [same]
  | some topics => exact scopeOf_forget r _ clientId other topic

theorem empty_consistent : Consistent empty := by
  refine ⟨⟨?_,?_⟩,?_,?_⟩ <;> simp [empty,listed,scopeOf,topicsOf]

theorem Consistent.not_listed (consistent : Consistent r) (free : r.scopeOf clientId topic = none) :
    clientId ∉ (listed r.topicSubscribers topic).map Subscriber.clientId := by
  intro member
  obtain ⟨⟨_,scope⟩,entry,rfl⟩ := List.mem_map.mp member
  simp [(consistent.agree _ topic scope).mpr entry] at free

theorem store_occupied (proper : Proper map) (nonempty : subs ≠ []) :
    ∀ other held, (map.insert topic subs).lookup other = some held → held ≠ [] := by
  intro other held found
  by_cases same : other = topic
  · subst same
    rw [AList.lookup_insert,Option.some.injEq] at found
    exact found ▸ nonempty
  · rw [AList.lookup_insert_ne same] at found
    exact proper.occupied other held found

theorem append_proper (consistent : Consistent r) (free : r.scopeOf clientId topic = none) :
    Proper (r.topicSubscribers.insert topic
      (listed r.topicSubscribers topic ++ [⟨clientId,scope⟩])) := by
  refine ⟨fun other => ?_,store_occupied consistent.proper (by simp)⟩
  rw [listed_insert]
  split
  · have fresh := consistent.not_listed free
    rw [List.map_append,List.nodup_append]
    refine ⟨consistent.proper.single topic,by simp,?_⟩
    intro x member y last equal
    simp only [List.map_cons,List.map_nil,List.mem_singleton] at last
    exact fresh (last ▸ equal ▸ member)
  · exact consistent.proper.single other

/-- Widening or narrowing a held subscription rewrites its one entry. -/
theorem listed_setScope (consistent : Consistent r) (held : r.scopeOf clientId topic = some old)
    (other : Str) :
    listed (setScope topic clientId scope r.topicSubscribers) other =
      if other = topic then (listed r.topicSubscribers topic).map fun s =>
          if s.clientId = clientId then ⟨clientId,scope⟩ else s
        else listed r.topicSubscribers other := by
  unfold setScope
  have entry := (consistent.agree _ _ _).mp held
  cases found : r.topicSubscribers.lookup topic with
  | none => simp [listed,found] at entry
  | some subs =>
    have whole : listed r.topicSubscribers topic = subs := by simp [listed,found]
    dsimp only
    rw [listed_insert,set_position clientId scope subs (whole ▸ consistent.proper.single topic),whole]

theorem setScope_proper (consistent : Consistent r) (held : r.scopeOf clientId topic = some old) :
    Proper (setScope topic clientId scope r.topicSubscribers) := by
  constructor
  · intro other
    rw [listed_setScope consistent held]
    split
    · have same : ((listed r.topicSubscribers topic).map fun s =>
          if s.clientId = clientId then (⟨clientId,scope⟩ : Subscriber) else s).map Subscriber.clientId =
            (listed r.topicSubscribers topic).map Subscriber.clientId := by
        rw [List.map_map]
        refine List.map_congr_left fun s _ => ?_
        by_cases here : s.clientId = clientId <;> simp [here]
      exact same ▸ consistent.proper.single topic
    · exact consistent.proper.single other
  · unfold setScope
    have entry := (consistent.agree _ _ _).mp held
    cases found : r.topicSubscribers.lookup topic with
    | none => simp [listed,found] at entry
    | some subs =>
      exact store_occupied consistent.proper (by simpa using consistent.proper.occupied topic subs found)

theorem store_holding (consistent : Consistent r) (nonempty : topics.keys ≠ []) :
    ∀ other held, (r.clientTopics.insert clientId topics).lookup other = some held → held.keys ≠ [] := by
  intro other held found
  by_cases same : other = clientId
  · subst same
    rw [AList.lookup_insert,Option.some.injEq] at found
    exact found ▸ nonempty
  · rw [AList.lookup_insert_ne same] at found
    exact consistent.holding other held found

theorem subscribe_consistent (consistent : Consistent r) (clientId topic : Str) (scope : Origin) :
    Consistent (r.subscribe clientId topic scope).1 := by
  have scopes := scopeOf_subscribe r clientId topic scope
  have nonempty : ((r.topicsOf clientId).insert topic scope).keys ≠ [] := by simp
  unfold subscribe at scopes ⊢
  cases held : (r.topicsOf clientId).lookup topic with
  | none =>
    simp only [held] at scopes ⊢
    refine ⟨append_proper consistent held,?_,store_holding consistent nonempty⟩
    intro other topic' scope'
    rw [scopes,listed_insert]
    by_cases here : topic' = topic
    · subst here
      by_cases same : other = clientId
      · subst same
        have absent : r.scopeOf other topic' ≠ some scope' := by simp [scopeOf,held]
        rw [ne_eq,consistent.agree] at absent
        simp [absent,eq_comm]
      · simp [same,consistent.agree]
    · simp [here,consistent.agree]
  | some old =>
    simp only [held] at scopes ⊢
    split
    · exact consistent
    next changed =>
      rw [if_neg changed] at scopes
      refine ⟨setScope_proper consistent held,?_,store_holding consistent nonempty⟩
      intro other topic' scope'
      rw [scopes,listed_setScope consistent held]
      by_cases here : topic' = topic
      · subst here
        have entry := (consistent.agree _ _ _).mp held
        by_cases same : other = clientId
        · subst same
          simp only [and_self,if_true,Option.some.injEq,List.mem_map]
          constructor
          · rintro rfl
            exact ⟨_,entry,by simp⟩
          · rintro ⟨s,_,image⟩
            split at image
            · exact congrArg Subscriber.scope image
            next differs => exact absurd (congrArg Subscriber.clientId image) differs
        · simp only [same,false_and,if_false,if_true,consistent.agree,List.mem_map]
          constructor
          · intro member
            exact ⟨_,member,by simp [same]⟩
          · rintro ⟨s,member,image⟩
            split at image
            · exact absurd (congrArg Subscriber.clientId image).symm same
            · exact image ▸ member
      · simp [here,consistent.agree]

theorem forget_holding (consistent : Consistent r) :
    ∀ other held, (r.clientTopics.erase clientId).lookup other = some held → held.keys ≠ [] := by
  intro other held found
  by_cases same : other = clientId
  · subst same; simp at found
  · rw [AList.lookup_erase_ne same] at found
    exact consistent.holding other held found

theorem unsubscribe_consistent (consistent : Consistent r) (clientId topic : Str) :
    Consistent (r.unsubscribe clientId topic).1 := by
  have scopes := scopeOf_unsubscribe r clientId topic
  unfold unsubscribe at scopes ⊢
  cases held : r.clientTopics.lookup clientId with
  | none => exact consistent
  | some topics =>
    simp only [held] at scopes ⊢
    by_cases member : topic ∈ topics
    · rw [if_pos member] at scopes ⊢
      refine ⟨dropSubscriber_proper _ topic clientId consistent.proper,?_,?_⟩
      · intro other topic' scope
        rw [scopes,(listed_dropSubscriber _ topic clientId topic' consistent.proper).mem_iff]
        by_cases here : topic' = topic
        · subst here
          by_cases same : other = clientId <;> simp [same,consistent.agree]
        · simp [here,consistent.agree]
      · dsimp only
        split
        · exact forget_holding consistent
        next remains => exact store_holding consistent (by simpa using remains)
    · rw [if_neg member]
      exact consistent

theorem removeClient_consistent (consistent : Consistent r) (clientId : Str) :
    Consistent (r.removeClient clientId) := by
  have scopes := scopeOf_removeClient r clientId
  unfold removeClient at scopes ⊢
  cases held : r.clientTopics.lookup clientId with
  | none => exact consistent
  | some topics =>
    simp only [held] at scopes ⊢
    refine ⟨foldl_drop_proper clientId _ _ consistent.proper,?_,forget_holding consistent⟩
    intro other topic scope
    rw [scopes,mem_foldl_drop clientId _ _ consistent.proper]
    by_cases same : other = clientId
    · subst same
      simp only [if_true,and_true,reduceCtorEq,false_iff,not_and,not_not]
      intro entry
      have subscribed := (consistent.agree _ _ _).mpr entry
      simp only [scopeOf,topicsOf,held,Option.getD_some] at subscribed
      exact AList.mem_keys.mp (AList.lookup_isSome.mp (by simp [subscribed]))
    · simp [same,consistent.agree]

theorem hasMeshSubscriber_listed (r : SubscriptionRegistry) (topic : Str) :
    r.hasMeshSubscriber topic =
      (listed r.topicSubscribers topic).any fun s => scopeAccepts s.scope false := by
  unfold hasMeshSubscriber subscribersOf listed
  cases r.topicSubscribers.lookup topic <;> rfl

theorem hasMeshSubscriber_iff (consistent : Consistent r) (topic : Str) :
    r.hasMeshSubscriber topic = true ↔
      ∃ clientId scope, r.scopeOf clientId topic = some scope ∧ scopeAccepts scope false = true := by
  rw [hasMeshSubscriber_listed,List.any_eq_true]
  constructor
  · rintro ⟨⟨clientId,scope⟩,member,accepts⟩
    exact ⟨clientId,scope,(consistent.agree _ _ _).mpr member,accepts⟩
  · rintro ⟨clientId,scope,held,accepts⟩
    exact ⟨⟨clientId,scope⟩,(consistent.agree _ _ _).mp held,accepts⟩

theorem hasMeshSubscriber_congr {r r' : SubscriptionRegistry} (before : Consistent r) (after : Consistent r')
    (same : ∀ clientId, r'.scopeOf clientId topic = r.scopeOf clientId topic) :
    r'.hasMeshSubscriber topic = r.hasMeshSubscriber topic := by
  rw [Bool.eq_iff_iff,hasMeshSubscriber_iff after,hasMeshSubscriber_iff before]
  simp only [same]

/-- The topics a client holds, in whichever scope. -/
def held (r : SubscriptionRegistry) (clientId : Str) : Finset Str := (r.topicsOf clientId).keys.toFinset

theorem mem_held (r : SubscriptionRegistry) (clientId topic : Str) :
    topic ∈ r.held clientId ↔ r.scopeOf clientId topic ≠ none := by
  simp [held,scopeOf,AList.lookup_eq_none,AList.mem_keys]

theorem held_card (r : SubscriptionRegistry) (clientId : Str) :
    (r.held clientId).card = (r.topicsOf clientId).keys.length :=
  List.toFinset_card_of_nodup (r.topicsOf clientId).keys_nodup

theorem held_congr {r r' : SubscriptionRegistry}
    (same : ∀ topic, r'.scopeOf clientId topic = r.scopeOf clientId topic) :
    r'.held clientId = r.held clientId := by
  ext topic
  rw [mem_held,mem_held,same]

end SubscriptionRegistry

end Wisp
