import Wisp.Routing

/-! What the queues of a link can hold. The CONNECT leads, only interest updates
the remote accepts follow it, and nothing but application traffic is forwarded. -/
namespace Wisp

open Routing

/-- An interest update, for a topic that the remote does not refuse. -/
def Control.Pushed : Control → Prop
  | .subscribe topic => TopicFits topic
  | .unsubscribe _ => True
  | _ => False

theorem wildcard_fits : TopicFits Keys.wildcardTopic := ⟨by decide,by decide⟩

namespace Interest

variable {interest : Interest} (fits : ∀ t ∈ interest.topics, TopicFits t)

include fits

theorem sendInterestTo_pushed : ∀ message ∈ interest.sendInterestTo, message.Pushed := by
  intro message member
  unfold sendInterestTo at member
  split at member
  · rw [List.mem_singleton.mp member]
    exact wildcard_fits
  · obtain ⟨topic,listed,rfl⟩ := List.mem_map.mp member
    exact fits topic listed

theorem noteTopicSubscribed_pushed {topic : Str} (wanted : TopicFits topic) :
    (∀ t ∈ (interest.noteTopicSubscribed topic).1.topics, TopicFits t) ∧
      ∀ message ∈ (interest.noteTopicSubscribed topic).2, message.Pushed := by
  unfold noteTopicSubscribed
  split_ifs with wild already propagatable known
  · exact ⟨fits,by simp⟩
  · exact ⟨fits,by simpa [Control.Pushed] using wildcard_fits⟩
  · exact ⟨fits,by simp⟩
  · refine ⟨?_,?_⟩
    · rintro t (_ | ⟨_,member⟩)
      · exact wanted
      · exact fits t member
    · simp only [List.mem_singleton,forall_eq,Control.Pushed]
      split
      · exact wildcard_fits
      · exact wanted
  · exact ⟨fits,by simp⟩

theorem noteTopicUnsubscribed_pushed (topic : Str) :
    (∀ t ∈ (interest.noteTopicUnsubscribed topic).1.topics, TopicFits t) ∧
      ∀ message ∈ (interest.noteTopicUnsubscribed topic).2, message.Pushed := by
  unfold noteTopicUnsubscribed
  split_ifs with wild held full propagatable absent
  · exact ⟨fits,by simp⟩
  · refine ⟨fits,?_⟩
    rintro message (_ | ⟨_,member⟩)
    · trivial
    · obtain ⟨t,listed,rfl⟩ := List.mem_map.mp member
      exact fits t listed
  · exact ⟨fits,by simp⟩
  · exact ⟨fits,by simp⟩
  · refine ⟨fun t member => fits t (List.mem_of_mem_erase member),?_⟩
    simp [Control.Pushed]
  · exact ⟨fits,by simp⟩

theorem noteMeshInterestChange_pushed {topic : Str} (wanted : TopicFits topic) (before now : Bool) :
    (∀ t ∈ (interest.noteMeshInterestChange topic before now).1.topics, TopicFits t) ∧
      ∀ message ∈ (interest.noteMeshInterestChange topic before now).2, message.Pushed := by
  unfold noteMeshInterestChange
  split_ifs
  · exact ⟨fits,by simp⟩
  · exact noteTopicSubscribed_pushed fits wanted
  · exact noteTopicUnsubscribed_pushed fits topic

end Interest

structure LinkQueue (link : PeerLink) : Prop where
  updates : ∀ message ∈ link.control, message = .connect ∨ message.Pushed
  leads : .connect ∉ link.control.tail
  forwarded : ∀ env ∈ link.encoded, Keys.isReservedKey env.header.handlerKey = false

namespace LinkQueue

variable {link link' : PeerLink}

theorem push (queue : LinkQueue link) {messages : List Control} (pushed : ∀ message ∈ messages, message.Pushed) :
    LinkQueue { link with control := link.control ++ messages } := by
  have never : .connect ∉ messages := fun member => pushed _ member
  refine ⟨?_,?_,queue.forwarded⟩
  · intro message member
    rcases List.mem_append.mp member with old | new
    · exact queue.updates message old
    · exact .inr (pushed message new)
  · have leads := queue.leads
    cases held : link.control with
    | nil => exact fun member => never (List.mem_of_mem_tail member)
    | cons first rest =>
      rw [held] at leads
      simpa [never] using leads

theorem shrink (queue : LinkQueue link) (shrinks : Shrinks link link') : LinkQueue link' := by
  refine ⟨fun message member => queue.updates message (shrinks.control.subset member),?_,
    fun env member => queue.forwarded env (shrinks.encoded.subset member)⟩
  obtain ⟨front,split⟩ := shrinks.control
  have leads := queue.leads
  rw [← split] at leads
  intro member
  refine leads ?_
  cases front with
  | nil => exact member
  | cons first rest => exact List.mem_append.mpr (.inr (List.mem_of_mem_tail member))

theorem forward (queue : LinkQueue link) {traffic : List Envelope}
    (application : ∀ env ∈ traffic, Keys.isReservedKey env.header.handlerKey = false) :
    LinkQueue { link with encoded := link.encoded ++ traffic } := by
  refine ⟨queue.updates,queue.leads,fun env member => ?_⟩
  rcases List.mem_append.mp member with old | new
  · exact queue.forwarded env old
  · exact application env new

end LinkQueue

namespace Routing

structure Queued (r : Routing) : Prop where
  registered : ∀ clientId topic, r.subscriptions.scopeOf clientId topic ≠ none → TopicFits topic
  interested : ∀ topic ∈ r.interest.topics, TopicFits topic
  queues : ∀ link ∈ r.peers, LinkQueue link
  distinct : (r.peers.map PeerLink.key).Nodup

theorem empty_queued : Queued empty :=
  ⟨fun _ _ held => absurd rfl held,by simp [empty,Interest.empty],by simp [empty],by simp [empty]⟩

theorem Queued.note (queued : Queued r) (fits : TopicFits topic) (before : Bool) :
    Queued (r.noteMeshInterestChange topic before) := by
  obtain ⟨interested,pushed⟩ := Interest.noteMeshInterestChange_pushed queued.interested fits before
    (r.subscriptions.hasMeshSubscriber topic)
  refine ⟨queued.registered,interested,fun link member => ?_,?_⟩
  · obtain ⟨old,listed,rfl⟩ := List.mem_map.mp member
    exact (queued.queues old listed).push pushed
  · simpa [pushControl,Function.comp_def] using queued.distinct

theorem Queued.registry (queued : Queued r) {subscriptions : SubscriptionRegistry}
    (registered : ∀ clientId topic, subscriptions.scopeOf clientId topic ≠ none → TopicFits topic) :
    Queued { r with subscriptions } :=
  ⟨registered,queued.interested,queued.queues,queued.distinct⟩

theorem Queued.subscribe (queued : Queued r) (clientId : Str) (fits : TopicFits topic) (scope : Origin) :
    Queued (r.subscribe clientId topic scope) := by
  unfold Routing.subscribe
  dsimp only
  split
  · refine Queued.note (queued.registry fun other t held => ?_) fits _
    rw [SubscriptionRegistry.scopeOf_subscribe] at held
    split at held
    next here => exact here.2 ▸ fits
    · exact queued.registered other t held
  · exact queued

theorem Queued.unsubscribe (queued : Queued r) (clientId topic : Str) : Queued (r.unsubscribe clientId topic) := by
  unfold Routing.unsubscribe
  dsimp only
  split
  next existed =>
    have held := (SubscriptionRegistry.unsubscribe_changed _ clientId topic).mp existed
    refine Queued.note (queued.registry fun other t remains => ?_) (queued.registered clientId topic held) _
    rw [SubscriptionRegistry.scopeOf_unsubscribe] at remains
    split at remains
    · exact absurd rfl remains
    · exact queued.registered other t remains
  · exact queued

theorem Queued.removeClient (queued : Queued r) (clientId : Str) : Queued (r.removeClient clientId) := by
  have noted (topics : List Str) (fits : ∀ t ∈ topics, TopicFits t) {r : Routing} (queued : Queued r) :
      Queued (topics.foldl (fun r topic => r.noteMeshInterestChange topic true) r) := by
    induction topics generalizing r with
    | nil => exact queued
    | cons topic rest ih =>
      exact ih (fun t member => fits t (List.mem_cons_of_mem _ member))
        (queued.note (fits topic List.mem_cons_self) true)
  refine noted _ (fun t member => ?_) (queued.registry fun other t held => ?_)
  · have listed := (List.mem_filter.mp member).1
    exact queued.registered clientId t ((SubscriptionRegistry.mem_held _ _ _).mp (List.mem_toFinset.mpr listed))
  · rw [SubscriptionRegistry.scopeOf_removeClient] at held
    split at held
    · exact absurd rfl held
    · exact queued.registered other t held

theorem queued_upheld : Upheld Queued where
  removeClient _ clientId queued := queued.removeClient clientId
  dropLinks _ _ queued := ⟨queued.registered,queued.interested,
    fun link member => queued.queues link (List.mem_of_mem_filter member),
    queued.distinct.sublist (List.filter_sublist.map _)⟩
  subscribe _ clientId _ scope fits queued := queued.subscribe clientId fits scope
  unsubscribe _ clientId topic queued := queued.unsubscribe clientId topic
  forward r traffic application queued := by
    refine ⟨queued.registered,queued.interested,fun link member => ?_,?_⟩
    · obtain ⟨old,listed,rfl⟩ := (mem_forward traffic r link).mp member
      exact (queued.queues old listed).forward (application old)
    · simpa [Routing.forward,Function.comp_def] using queued.distinct
  mapLink r key f shrinks queued := by
    refine ⟨queued.registered,queued.interested,fun link member => ?_,?_⟩
    · obtain ⟨old,listed,rfl⟩ := List.mem_map.mp member
      split
      · exact (queued.queues old listed).shrink (shrinks old)
      · exact queued.queues old listed
    · have same : ∀ link : PeerLink, (if link.key = key then f link else link).key = link.key := by
        intro link
        split
        · exact (shrinks link).key
        · rfl
      simpa [Routing.mapLink,Function.comp_def,same] using queued.distinct
  addPeer r brokerId key address queued := by
    unfold Routing.addPeer
    split
    · exact queued
    next unknown =>
      simp only [List.any_eq_true,not_exists,not_and,Bool.or_eq_true,beq_iff_eq,not_or] at unknown
      refine ⟨queued.registered,queued.interested,fun link member => ?_,?_⟩
      · rcases List.mem_append.mp member with old | new
        · exact queued.queues link old
        · have pushed := Interest.sendInterestTo_pushed queued.interested
          rw [List.mem_singleton.mp new]
          refine ⟨?_,fun member => pushed _ member,by simp⟩
          rintro message (_ | ⟨_,member⟩)
          · exact .inl rfl
          · exact .inr (pushed message member)
      · rw [List.map_append,List.nodup_append]
        refine ⟨queued.distinct,by simp,?_⟩
        rintro _ old _ new rfl
        obtain ⟨link,listed,same⟩ := List.mem_map.mp old
        simp only [List.map_cons,List.map_nil,List.mem_singleton] at new
        exact (unknown link listed).1 (same.trans new)
  resendInterest r key queued := by
    refine ⟨queued.registered,queued.interested,fun link member => ?_,?_⟩
    · obtain ⟨old,listed,rfl⟩ := List.mem_map.mp member
      split
      · exact (queued.queues old listed).push (Interest.sendInterestTo_pushed queued.interested)
      · exact queued.queues old listed
    · have same : ∀ link : PeerLink, (if link.key = key then
          { link with control := link.control ++ r.interest.sendInterestTo } else link).key = link.key := by
        intro link
        split <;> rfl
      simpa [Routing.resendInterest,Function.comp_def,same] using queued.distinct

end Routing

end Wisp
