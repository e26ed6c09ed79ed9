import Wisp.SubscriptionRegistry
import Wisp.Transition

/-! What the registry is for: a map from a client and a topic to a scope. After any
sequence of calls both of its tables hold the triples of that map and nothing besides,
and every call answers what the map says. -/
namespace Wisp

open Transition

abbrev ScopeMap := Str → Str → Option Origin

namespace SubscriptionRegistry

inductive Call where
  | subscribe (clientId topic : Str) (scope : Origin)
  | unsubscribe (clientId topic : Str)
  | removeClient (clientId : Str)
  deriving DecidableEq, Repr

/-- A call, with its answer where it has one. -/
def call : Call → SubscriptionRegistry → Outcome SubscriptionRegistry Bool
  | .subscribe clientId topic scope, r =>
    ⟨(r.subscribe clientId topic scope).1,[(r.subscribe clientId topic scope).2]⟩
  | .unsubscribe clientId topic, r => ⟨(r.unsubscribe clientId topic).1,[(r.unsubscribe clientId topic).2]⟩
  | .removeClient clientId, r => ⟨r.removeClient clientId,[]⟩

end SubscriptionRegistry

namespace ScopeMap

open SubscriptionRegistry

def apply : Call → ScopeMap → ScopeMap
  | .subscribe clientId topic scope, map => fun other t =>
    if other = clientId ∧ t = topic then some scope else map other t
  | .unsubscribe clientId topic, map => fun other t => if other = clientId ∧ t = topic then none else map other t
  | .removeClient clientId, map => fun other t => if other = clientId then none else map other t

def after (calls : List Call) : ScopeMap := calls.foldl (fun map call => map.apply call) fun _ _ => none

theorem subscribe_changes (map : ScopeMap) (clientId topic : Str) (scope : Origin) :
    map.apply (.subscribe clientId topic scope) ≠ map ↔ map clientId topic ≠ some scope := by
  constructor
  · intro changed held
    apply changed
    funext other t
    simp only [apply]
    split
    next here => rw [here.1,here.2,held]
    · rfl
  · intro differs same
    apply differs
    rw [← congrFun (congrFun same clientId) topic]
    simp [apply]

end ScopeMap

namespace SubscriptionRegistry

/-- Both tables hold the triples of the map, each subscriber once, and no empty entry. -/
structure Represents (r : SubscriptionRegistry) (map : ScopeMap) : Prop where
  clientTopics : ∀ clientId topic scope, (∃ topics, r.clientTopics.lookup clientId = some topics ∧
    topics.lookup topic = some scope) ↔ map clientId topic = some scope
  topicSubscribers : ∀ clientId topic scope, (∃ subs, r.topicSubscribers.lookup topic = some subs ∧
    ⟨clientId,scope⟩ ∈ subs) ↔ map clientId topic = some scope
  once : ∀ topic subs, r.topicSubscribers.lookup topic = some subs → (subs.map Subscriber.clientId).Nodup
  held : ∀ clientId topics, r.clientTopics.lookup clientId = some topics → topics.keys ≠ []
  occupied : ∀ topic subs, r.topicSubscribers.lookup topic = some subs → subs ≠ []

variable {r : SubscriptionRegistry} {map : ScopeMap}

theorem scopeOf_eq_some {clientId topic : Str} {scope : Origin} : r.scopeOf clientId topic = some scope ↔
    ∃ topics, r.clientTopics.lookup clientId = some topics ∧ topics.lookup topic = some scope := by
  unfold scopeOf topicsOf
  cases r.clientTopics.lookup clientId with
  | none => simp
  | some topics => simp

theorem mem_listed {topic : Str} {subscriber : Subscriber} : subscriber ∈ listed r.topicSubscribers topic ↔
    ∃ subs, r.topicSubscribers.lookup topic = some subs ∧ subscriber ∈ subs := by
  unfold listed
  cases r.topicSubscribers.lookup topic with
  | none => simp
  | some subs => simp

theorem Consistent.represents (consistent : Consistent r) (same : ∀ clientId topic, r.scopeOf clientId topic =
    map clientId topic) : Represents r map := by
  refine ⟨fun clientId topic scope => ?_,fun clientId topic scope => ?_,fun topic subs found => ?_,
    consistent.holding,consistent.proper.occupied⟩
  · rw [← scopeOf_eq_some,same]
  · rw [← mem_listed,← consistent.agree,same]
  · have single := consistent.proper.single topic
    rwa [listed,found] at single

theorem call_consistent (consistent : Consistent r) (next : Call) : Consistent (call next r).state := by
  cases next with
  | subscribe clientId topic scope => exact subscribe_consistent consistent clientId topic scope
  | unsubscribe clientId topic => exact unsubscribe_consistent consistent clientId topic
  | removeClient clientId => exact removeClient_consistent consistent clientId

theorem call_scopes (same : ∀ clientId topic, r.scopeOf clientId topic = map clientId topic) (next : Call)
    (clientId topic : Str) : (call next r).state.scopeOf clientId topic = map.apply next clientId topic := by
  cases next with
  | subscribe => rw [call,scopeOf_subscribe,same]; rfl
  | unsubscribe => rw [call,scopeOf_unsubscribe,same]; rfl
  | removeClient => rw [call,scopeOf_removeClient,same]; rfl

theorem run_scopes (calls : List Call) (consistent : Consistent r)
    (same : ∀ clientId topic, r.scopeOf clientId topic = map clientId topic) :
    Consistent (run call calls r).state ∧ ∀ clientId topic, (run call calls r).state.scopeOf clientId topic =
      calls.foldl (fun map call => map.apply call) map clientId topic := by
  induction calls generalizing r map with
  | nil => exact ⟨consistent,same⟩
  | cons next rest ih => exact ih (call_consistent consistent next) (call_scopes same next)

/-- The registry refines the map, over any sequence of calls. -/
theorem refines_scope_map (calls : List Call) :
    let r := (run call calls empty).state
    let map := ScopeMap.after calls
    Represents r map ∧
    (∀ clientId topic scope, (r.subscribe clientId topic scope).2 = true ↔
      map.apply (.subscribe clientId topic scope) ≠ map) ∧
    (∀ clientId topic, (r.unsubscribe clientId topic).2 = true ↔ map clientId topic ≠ none) ∧
    (∀ clientId, Represents (r.removeClient clientId) fun other topic =>
      if other = clientId then none else map other topic) ∧
    ∀ topic, r.hasMeshSubscriber topic = true ↔
      ∃ clientId scope, map clientId topic = some scope ∧ scopeAccepts scope false = true := by
  intro r map
  obtain ⟨consistent,same⟩ : Consistent r ∧ ∀ clientId topic, r.scopeOf clientId topic = map clientId topic :=
    run_scopes calls empty_consistent fun _ _ => rfl
  refine ⟨consistent.represents same,fun clientId topic scope => ?_,fun clientId topic => ?_,fun clientId => ?_,
    fun topic => ?_⟩
  · rw [subscribe_changed,same,ScopeMap.subscribe_changes]
  · rw [unsubscribe_changed,same]
  · apply (removeClient_consistent consistent clientId).represents
    intro other topic
    rw [scopeOf_removeClient,same]
  · rw [hasMeshSubscriber_iff consistent]
    simp only [same]

example : (run call [.subscribe (str "c") (str "t") .local,.subscribe (str "c") (str "t") .any,
    .subscribe (str "c") (str "t") .any,.unsubscribe (str "d") (str "t")] empty).events =
      [true,true,false,false] := by decide

end SubscriptionRegistry

end Wisp
