import Wisp.Exchange

/-! What one client keeps through every step it takes: whose each callback of the table is,
what its promises were given, and what it has told of the requests it made. -/
namespace Wisp

open Transition ListTable

theorem makeReplyTopic_dotted (requestTopic uuid : Str) : 46 ∈ Client.makeReplyTopic requestTopic uuid :=
  List.mem_append_right _ List.mem_cons_self

namespace Dispatcher

variable {φ : Type} {d : Dispatcher φ}

theorem subscribe_reserved (key : Str) :
    Keys.isReservedKey (d.createSubscribeEnvelope key).header.handlerKey = true := rfl

theorem performRegistration_reserved (key : Str) (callback : Option φ) (owner : Nat) (scope : Origin) :
    ∀ env ∈ (d.performRegistration key callback owner scope).2, Keys.isReservedKey env.header.handlerKey = true := by
  intro env member
  dsimp only [performRegistration] at member
  split at member
  · rw [List.mem_singleton.mp member]
    exact subscribe_reserved key
  · cases member

theorem resubscribeAll_reserved :
    ∀ env ∈ d.resubscribeAll, Keys.isReservedKey env.header.handlerKey = true := by
  intro env member
  obtain ⟨key,-,rfl⟩ := List.mem_map.mp member
  exact subscribe_reserved key

theorem statusHandler_reserved (connected : Bool) :
    ∀ env ∈ (d.statusHandler connected).2, Keys.isReservedKey env.header.handlerKey = true := by
  intro env member
  dsimp only [statusHandler] at member
  split at member
  · rcases List.mem_cons.mp member with rfl | told
    · rfl
    · exact resubscribeAll_reserved env told
  · cases member

/-- What a withdrawal leaves of the table. -/
structure Withdraws (key : Str) (owner : Nat) (d next : Dispatcher φ) : Prop where
  clientId : next.clientId = d.clientId
  counted : next.Counted
  leaves : ∀ topic, listed topic next.handlers =
    if key = topic then (listed topic d.handlers).filter (·.owner ≠ owner) else listed topic d.handlers

theorem performUnregistration_withdraws (counted : d.Counted) (key : Str) (owner : Nat) :
    ∃ next sent, d.performUnregistration key owner = some (next,sent) ∧ Withdraws key owner d next ∧
      ∀ env ∈ sent, Keys.isReservedKey env.header.handlerKey = true := by
  obtain ⟨next,sent,done,counts⟩ := performUnregistration_counted counted key owner
  refine ⟨next,sent,done,?_⟩
  unfold performUnregistration at done
  cases here : d.handlers.lookup key with
  | none =>
    rw [here] at done
    obtain ⟨rfl,rfl⟩ := Prod.mk.inj (Option.some.inj done)
    refine ⟨⟨rfl,counted,fun topic => ?_⟩,fun env never => by cases never⟩
    split
    next same =>
      subst same
      rw [listed,here]
      rfl
    · rfl
  | some callbacks =>
    obtain ⟨left,released,-⟩ := counted.release here owner
    have old : listed key d.handlers = callbacks.val := by rw [listed,here]; rfl
    rw [here] at done
    dsimp only at done
    rw [released,Option.map_some] at done
    dsimp only at done
    by_cases gone : callbacks.val.filter (·.owner ≠ owner) = []
    · rw [dif_pos gone] at done
      obtain ⟨rfl,rfl⟩ := Prod.mk.inj (Option.some.inj done)
      refine ⟨⟨rfl,counts,fun topic => ?_⟩,fun env member => ?_⟩
      · rw [listed_erase]
        split
        next same =>
          subst same
          rw [old,gone]
        · rfl
      · rw [List.mem_singleton.mp member]
        rfl
    · rw [dif_neg gone] at done
      obtain ⟨rfl,rfl⟩ := Prod.mk.inj (Option.some.inj done)
      refine ⟨⟨rfl,counts,fun topic => ?_⟩,fun env member => ?_⟩
      · rw [listed_insert]
        split
        next same =>
          subst same
          rw [old]
        · rfl
      · split at member
        · rw [List.mem_singleton.mp member]
          rfl
        · cases member

/-- A withdrawal brings no promise into the table. -/
theorem Withdraws.single {α : Type} {key : Str} {owner : Nat} {d next : Dispatcher (Reaction α)}
    (withdraws : Withdraws key owner d next)
    (single : ∀ topic, ((listed topic d.handlers).filterMap Callback.promise?).Nodup) (topic : Str) :
    ((listed topic next.handlers).filterMap Callback.promise?).Nodup := by
  rw [withdraws.leaves]
  split
  · exact (single topic).sublist (List.filter_sublist.filterMap _)
  · exact single topic

/-- A call made for a message belongs to a registration for its topic, or for all of them. -/
theorem handleMessage_called {brokerId : Option Str} {env : Envelope} {invocation : Invocation φ}
    (member : invocation ∈ d.handleMessage brokerId env) :
    invocation.data = env.payload ∧ ∃ key entry, (key = env.header.topic ∨ key = Keys.wildcardTopic) ∧
      entry ∈ listed key d.handlers ∧ entry.func = some invocation.func := by
  rw [handleMessage,handle_eq] at member
  obtain ⟨entry,accepted,made⟩ := List.mem_filterMap.mp member
  obtain ⟨func,stored,rfl⟩ := Option.map_eq_some_iff.mp made
  refine ⟨rfl,?_⟩
  rcases List.mem_append.mp (List.mem_of_mem_filter accepted) with exactly | wildcard
  · exact ⟨_,entry,.inl rfl,exactly,stored⟩
  · split at wildcard
    · exact ⟨_,entry,.inr rfl,wildcard,stored⟩
    · cases wildcard

end Dispatcher

namespace Party

variable {α : Type}

/-- What an event does to the application's registrations for a topic. -/
def Event.edit (topic : Str) (entries : List (Callback α)) : Event α → List (Callback α)
  | .registered key entry => if key = topic then entries ++ [entry] else entries
  | .unregistered key owner => if key = topic then entries.filter (·.owner ≠ owner) else entries
  | .control _ | .published _ | .asked _ | .barred | .requested _ | .replied _ _ | .returned _ _ => entries

/-- The registrations for a topic that the application made and did not withdraw. -/
def replay (topic : Str) (trace : List (Event α)) : List (Callback α) := trace.foldl (Event.edit topic) []

theorem replay_append (topic : Str) (trace events : List (Event α)) :
    replay topic (trace ++ events) = events.foldl (Event.edit topic) (replay topic trace) :=
  List.foldl_append

theorem foldl_control (topic : Str) (entries : List (Callback α)) (envs : List Envelope) :
    (envs.map Event.control).foldl (Event.edit topic) entries = entries := by
  induction envs with
  | nil => rfl
  | cons env rest ih => exact ih

section

variable (received : Envelope → Prop) (trace : List (Event α))

/-- What holds of an event, given what has come in and what was reported. -/
def Event.Fits : Event α → Prop
  | .control env => Keys.isReservedKey env.header.handlerKey = true
  | .asked request => 46 ∈ request.header.replyTopic
  | .requested request => .asked request ∈ trace
  | .replied message reply => received message ∧ reply.header.topic = message.header.replyTopic ∧
      reply.header.topic ≠ [] ∧ reply.header.replyTopic = []
  | .returned request response => .asked request ∈ trace ∧ ∀ data ∈ response, ∃ message,
      received message ∧ message.header.topic = request.header.replyTopic ∧ message.payload = data
  | .registered _ _ | .unregistered _ _ | .published _ | .barred => True

structure Request.Sound (request : Request) : Prop where
  asked : .asked request.envelope ∈ trace
  dotted : 46 ∈ request.replyTopic
  fulfilled : ∀ data ∈ request.promise, ∃ message,
    received message ∧ message.header.topic = request.replyTopic ∧ message.payload = data
  answered : ∀ response, request.stage = .answered response → request.promise = some response

/-- An entry of the table is one request's, under its reply topic, or the application's. -/
def Belongs (requests : AList fun _ : Nat => Request) (key : Str) (entry : Callback (Reaction α)) : Prop :=
  match entry.promise? with
  | some promise => entry.owner = promise ∧ ∃ request ∈ requests.lookup promise, request.replyTopic = key
  | none => entry.owner ∉ requests

structure Sound (p : Party α) : Prop where
  counted : p.dispatcher.Counted
  requests : ∀ promise, ∀ request ∈ p.requests.lookup promise, request.Sound received trace
  entries : ∀ key, ∀ entry ∈ listed key p.dispatcher.handlers, Belongs p.requests key entry
  held : ∀ promise, ∀ request ∈ p.requests.lookup promise,
    ⟨promise,some (.fulfil promise),.any⟩ ∈ listed request.replyTopic p.dispatcher.handlers
  single : ∀ key, ((listed key p.dispatcher.handlers).filterMap Callback.promise?).Nodup
  came : ∀ h ∈ p.handling, received h.message
  calls : ∀ h ∈ p.handling, ∀ invocation ∈ h.rest, ∀ promise ∈ invocation.func.promise?,
    ∀ request ∈ p.requests.lookup promise, invocation.data = h.message.payload ∧ h.message.header.topic = request.replyTopic
  table : ∀ topic, (listed topic p.dispatcher.handlers).filterMap Callback.app? = replay topic trace

end

variable {received : Envelope → Prop} {trace events : List (Event α)} {p p' : Party α}
  {requests requests' : AList fun _ : Nat => Request} {request request' : Request} {owner : Nat}

theorem Request.Sound.later (sound : request.Sound received trace) (events : List (Event α)) :
    request.Sound received (trace ++ events) :=
  ⟨List.mem_append_left _ sound.asked,sound.dotted,sound.fulfilled,sound.answered⟩

/-- A promise keeps the first value it is given. -/
theorem Request.Sound.fulfils (sound : request.Sound received trace) {message : Envelope} {data : Str}
    (came : received message) (topic : message.header.topic = request.replyTopic) (payload : message.payload = data) :
    Request.Sound received trace { request with promise := request.promise.or (some data) } := by
  refine ⟨sound.asked,sound.dotted,fun given member => ?_,fun response stage => ?_⟩
  · cases held : request.promise with
    | none =>
      rw [held,Option.none_or] at member
      exact ⟨message,came,topic,payload.trans (Option.some.inj member)⟩
    | some first =>
      rw [held] at member
      exact sound.fulfilled given (held ▸ member)
  · rw [sound.answered response stage]
    rfl

/-- The same calls are in progress, each on its reply topic. -/
def Keeps (requests requests' : AList fun _ : Nat => Request) : Prop :=
  ∀ promise, (requests'.lookup promise).map Request.replyTopic = (requests.lookup promise).map Request.replyTopic

theorem Keeps.backward (keeps : Keeps requests requests') {promise : Nat} (found : request ∈ requests'.lookup promise) :
    ∃ old ∈ requests.lookup promise, old.replyTopic = request.replyTopic := by
  have same := keeps promise
  rw [Option.mem_def.mp found,Option.map_some] at same
  exact Option.map_eq_some_iff.mp same.symm

theorem Keeps.symm (keeps : Keeps requests requests') : Keeps requests' requests :=
  fun promise => (keeps promise).symm

theorem Keeps.mem_iff (keeps : Keeps requests requests') (owner : Nat) : owner ∈ requests' ↔ owner ∈ requests := by
  rw [← AList.lookup_isSome,← AList.lookup_isSome,← Option.isSome_map (f := Request.replyTopic),keeps owner,
    Option.isSome_map]

theorem keeps_insert (found : requests.lookup owner = some request) (same : request'.envelope = request.envelope) :
    Keeps requests (requests.insert owner request') := by
  intro promise
  by_cases here : promise = owner
  · subst here
    rw [AList.lookup_insert,found,Option.map_some,Option.map_some,Request.replyTopic,Request.replyTopic,same]
  · rw [AList.lookup_insert_ne here]

theorem keeps_fulfil (promise : Nat) (data : Str) : Keeps requests (fulfil promise data requests) := by
  unfold fulfil
  split
  · exact fun _ => rfl
  next found => exact keeps_insert found rfl

theorem Belongs.keeps {key : Str} {entry : Callback (Reaction α)} (belongs : Belongs requests key entry)
    (keeps : Keeps requests requests') : Belongs requests' key entry := by
  unfold Belongs at belongs ⊢
  cases kind : entry.promise? with
  | none =>
    rw [kind] at belongs
    exact fun member => belongs ((keeps.mem_iff entry.owner).mp member)
  | some promise =>
    rw [kind] at belongs
    obtain ⟨own,old,found,topic⟩ := belongs
    obtain ⟨request,now,same⟩ := keeps.symm.backward found
    exact ⟨own,request,now,same.trans topic⟩

/-- A step that leaves the table alone, goes on with what is being dispatched, and changes of a
request nothing but how far it is. -/
theorem Sound.moves (sound : p.Sound received trace) (counted : p'.dispatcher.Counted)
    (same : p'.dispatcher.handlers = p.dispatcher.handlers) (keeps : Keeps p.requests p'.requests)
    (each : ∀ promise, ∀ request ∈ p'.requests.lookup promise, request.Sound received (trace ++ events))
    (dispatching : ∀ h ∈ p'.handling, ∃ before ∈ p.handling, h.message = before.message ∧ h.rest ⊆ before.rest)
    (silent : ∀ topic, events.foldl (Event.edit topic) (replay topic trace) = replay topic trace) :
    p'.Sound received (trace ++ events) where
  counted := counted
  requests := each
  entries := by
    intro key entry member
    rw [same] at member
    exact (sound.entries key entry member).keeps keeps
  held := by
    intro promise request found
    obtain ⟨old,before,topic⟩ := keeps.backward found
    rw [same,← topic]
    exact sound.held promise old before
  single := by
    intro key
    rw [same]
    exact sound.single key
  came := by
    intro h now
    obtain ⟨before,was,message,-⟩ := dispatching h now
    rw [message]
    exact sound.came before was
  calls := by
    intro h now invocation member promise fulfils request found
    obtain ⟨before,was,message,fewer⟩ := dispatching h now
    obtain ⟨old,known,topic⟩ := keeps.backward found
    rw [message,← topic]
    exact sound.calls before was invocation (fewer member) promise fulfils old known
  table := by
    intro topic
    rw [same,replay_append,silent]
    exact sound.table topic

/-- A step that only reports. -/
theorem Sound.reports (sound : p.Sound received trace)
    (silent : ∀ topic, events.foldl (Event.edit topic) (replay topic trace) = replay topic trace) :
    p.Sound received (trace ++ events) :=
  sound.moves sound.counted rfl (fun _ => rfl) (fun promise request found => (sound.requests promise request found).later events)
    (fun h now => ⟨h,now,rfl,fun _ member => member⟩) silent

theorem Sound.registers (sound : p.Sound received trace) (key : Str) (func : Option α) (scope : Origin)
    (free : owner ∉ p.requests) (sent : List Envelope) :
    Sound received (trace ++ .registered key ⟨owner,func,scope⟩ :: sent.map .control)
      { p with dispatcher := (p.dispatcher.performRegistration key (func.map .app) owner scope).1 } := by
  have grown := p.dispatcher.performRegistration_listed key (func.map Reaction.app) owner scope
  have plain : Callback.promise? ⟨owner,func.map Reaction.app,scope⟩ = none := by cases func <;> rfl
  refine ⟨Dispatcher.performRegistration_counted sound.counted key _ owner scope,
    fun promise request found => (sound.requests promise request found).later _,fun topic entry member => ?_,
    fun promise request found => ?_,fun topic => ?_,sound.came,sound.calls,fun topic => ?_⟩
  · rw [grown] at member
    rcases List.mem_append.mp member with old | new
    · exact sound.entries topic entry old
    · split at new
      · rw [List.mem_singleton.mp new,Belongs,plain]
        exact free
      · cases new
  · rw [grown]
    exact List.mem_append_left _ (sound.held promise request found)
  · rw [grown,List.filterMap_append]
    split
    · rw [List.filterMap_cons_none plain,List.filterMap_nil,List.append_nil]
      exact sound.single topic
    · rw [List.filterMap_nil,List.append_nil]
      exact sound.single topic
  · rw [grown,List.filterMap_append,sound.table,replay_append,List.foldl_cons,foldl_control,Event.edit]
    split
    next => cases func <;> rfl
    · rw [List.filterMap_nil,List.append_nil]

theorem app?_owner {entry : Callback (Reaction α)} {app : Callback α} (own : entry.app? = some app) :
    app.owner = entry.owner := by
  unfold Callback.app? at own
  split at own
  · rw [← Option.some.inj own]
  · rw [← Option.some.inj own]
  · cases own

theorem filterMap_app?_filter (owner : Nat) (entries : List (Callback (Reaction α))) :
    (entries.filter (·.owner ≠ owner)).filterMap Callback.app? =
      (entries.filterMap Callback.app?).filter (·.owner ≠ owner) := by
  induction entries with
  | nil => rfl
  | cons entry rest ih =>
    cases own : entry.app? with
    | none =>
      rw [List.filterMap_cons_none own,← ih,List.filter_cons]
      split
      · rw [List.filterMap_cons_none own]
      · rfl
    | some app =>
      rw [List.filterMap_cons_some own,List.filter_cons,List.filter_cons,app?_owner own]
      split
      · rw [List.filterMap_cons_some own,ih]
      · exact ih

theorem Sound.unregisters (sound : p.Sound received trace) {key : Str} {next : Dispatcher (Reaction α)}
    (withdraws : Dispatcher.Withdraws key owner p.dispatcher next) (free : owner ∉ p.requests) (sent : List Envelope) :
    Sound received (trace ++ .unregistered key owner :: sent.map .control) { p with dispatcher := next } := by
  refine ⟨withdraws.counted,fun promise request found => (sound.requests promise request found).later _,
    fun topic entry member => ?_,fun promise request found => ?_,fun topic => ?_,sound.came,sound.calls,fun topic => ?_⟩
  · rw [withdraws.leaves] at member
    split at member
    · exact sound.entries topic entry (List.mem_of_mem_filter member)
    · exact sound.entries topic entry member
  · have stays := sound.held promise request found
    rw [withdraws.leaves]
    split
    · refine List.mem_filter.mpr ⟨stays,decide_eq_true ?_⟩
      rintro rfl
      exact free (AList.lookup_isSome.mp (Option.isSome_of_mem found))
    · exact stays
  · exact withdraws.single sound.single topic
  · rw [withdraws.leaves,replay_append,List.foldl_cons,foldl_control,Event.edit,← sound.table]
    split
    · exact filterMap_app?_filter owner _
    · rfl

/-- Nothing that lives is at a free address. -/
theorem addressFree_iff : p.addressFree owner = true ↔ owner ∉ p.requests ∧
    (∀ entry ∈ stored p.dispatcher.handlers, entry.owner ≠ owner) ∧
      ∀ h ∈ p.handling, ∀ invocation ∈ h.rest, owner ∉ invocation.func.promise? := by
  unfold addressFree
  cases p.handling <;> simp [and_assoc]

theorem Sound.asks (sound : p.Sound received trace) {envelope : Envelope} (free : p.addressFree owner = true)
    (dotted : 46 ∈ envelope.header.replyTopic) (sent : List Envelope) :
    Sound received (trace ++ .asked envelope :: sent.map .control)
      { p with
        requests := p.requests.insert owner ⟨envelope,.registered,none⟩
        dispatcher :=
          (p.dispatcher.performRegistration envelope.header.replyTopic (some (.fulfil owner)) owner .any).1 } := by
  obtain ⟨unused,unowned,uncalled⟩ := addressFree_iff.mp free
  have grown := p.dispatcher.performRegistration_listed envelope.header.replyTopic (some (.fulfil owner)) owner .any
  -- every other call in progress is another promise's
  have others {promise : Nat} {request : Request} (found : request ∈ p.requests.lookup promise) : promise ≠ owner := by
    rintro rfl
    exact unused (AList.lookup_isSome.mp (Option.isSome_of_mem found))
  refine ⟨Dispatcher.performRegistration_counted sound.counted _ _ owner .any,fun promise request found => ?_,
    fun topic entry member => ?_,fun promise request found => ?_,fun topic => ?_,sound.came,
    fun h now invocation member promise fulfils request found => ?_,fun topic => ?_⟩
  · by_cases here : promise = owner
    · subst here
      rw [AList.lookup_insert] at found
      rw [← Option.some.inj found]
      exact ⟨List.mem_append_right _ List.mem_cons_self,dotted,nofun,nofun⟩
    · rw [AList.lookup_insert_ne here] at found
      exact (sound.requests promise request found).later _
  · rw [grown] at member
    rcases List.mem_append.mp member with old | new
    · have belongs := sound.entries topic entry old
      unfold Belongs at belongs ⊢
      cases kind : entry.promise? with
      | none =>
        rw [kind] at belongs
        rw [AList.mem_insert]
        rintro (same | known)
        · exact unowned entry (mem_stored old) same
        · exact belongs known
      | some promise =>
        rw [kind] at belongs
        obtain ⟨own,request,found,here⟩ := belongs
        exact ⟨own,request,by rwa [AList.lookup_insert_ne (others found)],here⟩
    · split at new
      next here =>
        rw [List.mem_singleton.mp new]
        exact ⟨rfl,_,AList.lookup_insert _,here⟩
      · cases new
  · rw [grown]
    by_cases here : promise = owner
    · subst here
      rw [AList.lookup_insert] at found
      rw [← Option.some.inj found]
      exact List.mem_append_right _ (by rw [Request.replyTopic,if_pos rfl]; exact List.mem_singleton.mpr rfl)
    · rw [AList.lookup_insert_ne here] at found
      exact List.mem_append_left _ (sound.held promise request found)
  · rw [grown,List.filterMap_append]
    split
    · refine (sound.single topic).append (List.nodup_singleton owner) (List.disjoint_singleton.mpr ?_)
      intro member
      obtain ⟨entry,old,kind⟩ := List.mem_filterMap.mp member
      have belongs := sound.entries topic entry old
      rw [Belongs,kind] at belongs
      obtain ⟨-,request,found,-⟩ := belongs
      exact others found rfl
    · rw [List.filterMap_nil,List.append_nil]
      exact sound.single topic
  · by_cases here : promise = owner
    · subst here
      exact absurd fulfils (uncalled h now invocation member)
    · rw [AList.lookup_insert_ne here] at found
      exact sound.calls h now invocation member promise fulfils request found
  · rw [grown,List.filterMap_append,sound.table,replay_append,List.foldl_cons,foldl_control,Event.edit]
    split <;> exact List.append_nil _

/-- The entries a request leaves behind are the application's. -/
theorem filterMap_app?_others (owner : Nat) {entries : List (Callback (Reaction α))}
    (apart : ∀ entry ∈ entries, entry.promise? = none → entry.owner ≠ owner) :
    (entries.filter (·.owner ≠ owner)).filterMap Callback.app? = entries.filterMap Callback.app? := by
  rw [filterMap_app?_filter]
  refine List.filter_eq_self.mpr fun app member => decide_eq_true ?_
  obtain ⟨entry,stored,own⟩ := List.mem_filterMap.mp member
  rw [app?_owner own]
  refine apart entry stored ?_
  unfold Callback.app? at own
  unfold Callback.promise?
  split at own
  next none => rw [none]; rfl
  next func app => rw [app]; rfl
  · cases own

theorem Sound.leaves (sound : p.Sound received trace) (found : p.requests.lookup owner = some request)
    {next : Dispatcher (Reaction α)} (withdraws : Dispatcher.Withdraws request.replyTopic owner p.dispatcher next)
    (silent : ∀ topic entries, events.foldl (Event.edit topic) entries = entries) :
    Sound received (trace ++ events) { p with dispatcher := next, requests := p.requests.erase owner } := by
  have others {promise : Nat} {other : Request} (left : other ∈ (p.requests.erase owner).lookup promise) :
      promise ≠ owner ∧ other ∈ p.requests.lookup promise := by
    by_cases here : promise = owner
    · subst here
      rw [AList.lookup_erase] at left
      cases left
    · rw [AList.lookup_erase_ne here] at left
      exact ⟨here,left⟩
  refine ⟨withdraws.counted,fun promise other left => (sound.requests promise other (others left).2).later _,
    fun topic entry member => ?_,fun promise other left => ?_,withdraws.single sound.single,sound.came,
    fun h now invocation member promise fulfils other left =>
      sound.calls h now invocation member promise fulfils other (others left).2,fun topic => ?_⟩
  · have old : entry ∈ listed topic p.dispatcher.handlers ∧ (request.replyTopic = topic → entry.owner ≠ owner) := by
      rw [withdraws.leaves] at member
      split at member
      · exact ⟨List.mem_of_mem_filter member,fun _ => of_decide_eq_true (List.mem_filter.mp member).2⟩
      next elsewhere => exact ⟨member,fun here => absurd here elsewhere⟩
    have belongs := sound.entries topic entry old.1
    unfold Belongs at belongs ⊢
    cases kind : entry.promise? with
    | none =>
      rw [kind] at belongs
      rw [AList.mem_erase]
      exact fun known => belongs known.2
    | some promise =>
      rw [kind] at belongs
      obtain ⟨own,other,known,here⟩ := belongs
      have apart : promise ≠ owner := by
        rintro rfl
        rw [Option.mem_def.mp known] at found
        exact old.2 (Option.some.inj found ▸ here) own
      exact ⟨own,other,by rwa [AList.lookup_erase_ne apart],here⟩
  · have stays := sound.held promise other (others left).2
    rw [withdraws.leaves]
    split
    · exact List.mem_filter.mpr ⟨stays,decide_eq_true (others left).1⟩
    · exact stays
  · rw [withdraws.leaves,replay_append,silent,← sound.table]
    split
    · apply filterMap_app?_others
      intro entry member plain same
      have belongs := sound.entries topic entry member
      rw [Belongs,plain] at belongs
      exact belongs (same ▸ AList.lookup_isSome.mp (by rw [found]; rfl))
    · rfl

/-- The snapshots call nobody but those registered for the message. -/
theorem Sound.dispatches (sound : p.Sound received trace) {message : Envelope} (came : received message)
    (brokerId : Option Str) :
    Sound received trace { p with handling := some ⟨message,none,p.dispatcher.handleMessage brokerId message⟩ } := by
  refine ⟨sound.counted,sound.requests,sound.entries,sound.held,sound.single,fun h now => ?_,
    fun h now invocation member promise fulfils request found => ?_,sound.table⟩
  · rw [← Option.some.inj now]
    exact came
  · rw [← Option.some.inj now] at member ⊢
    obtain ⟨data,key,entry,topics,stored,func⟩ := Dispatcher.handleMessage_called member
    have belongs := sound.entries key entry stored
    rw [Belongs,Callback.promise?,func,Option.bind_some,Option.mem_def.mp fulfils] at belongs
    obtain ⟨-,other,known,here⟩ := belongs
    obtain rfl : other = request := Option.some.inj (known.symm.trans found)
    refine ⟨data,?_⟩
    rcases topics with rfl | rfl
    · exact here.symm
    · exact absurd (here ▸ (sound.requests promise other known).dotted) (by decide)

theorem controls_fit {envs : List Envelope} (reserved : ∀ env ∈ envs, Keys.isReservedKey env.header.handlerKey = true) :
    ∀ event ∈ envs.map Event.control, event.Fits received trace := by
  intro event member
  obtain ⟨env,sent,rfl⟩ := List.mem_map.mp member
  exact reserved env sent

/-- What a step keeps, and what it may report. -/
structure Proceeds (received : Envelope → Prop) (trace : List (Event α)) (next : Outcome (Party α) (Event α)) : Prop where
  sound : next.state.Sound received (trace ++ next.events)
  fits : ∀ event ∈ next.events, event.Fits received (trace ++ next.events)

theorem Sound.rests (sound : p.Sound received trace) : Proceeds received trace ⟨p,[]⟩ :=
  ⟨by rwa [List.append_nil],nofun⟩

theorem Sound.tells (sound : p.Sound received trace) {event : Event α} (silent : ∀ topic entries, event.edit topic entries = entries)
    (fits : event.Fits received (trace ++ [event])) : Proceeds received trace ⟨p,[event]⟩ :=
  ⟨sound.reports fun topic => silent topic _,fun _ member => List.mem_singleton.mp member ▸ fits⟩

theorem sound_insert (sound : p.Sound received trace) (still : request'.Sound received (trace ++ events)) :
    ∀ promise, ∀ request ∈ (p.requests.insert owner request').lookup promise, request.Sound received (trace ++ events) := by
  intro promise request found
  by_cases here : promise = owner
  · subst here
    rw [AList.lookup_insert] at found
    rwa [← Option.some.inj found]
  · rw [AList.lookup_insert_ne here] at found
    exact (sound.requests promise request found).later events

theorem Sound.restages (sound : p.Sound received trace) (found : p.requests.lookup owner = some request)
    (same : request'.envelope = request.envelope) (still : request'.Sound received (trace ++ events))
    (silent : ∀ topic entries, events.foldl (Event.edit topic) entries = entries) :
    Sound received (trace ++ events) { p with requests := p.requests.insert owner request' } :=
  sound.moves sound.counted rfl (keeps_insert found same) (sound_insert sound still)
    (fun h now => ⟨h,now,rfl,fun _ member => member⟩) fun topic => silent topic _

theorem wait_proceeds (sound : p.Sound received trace) (owner : Nat) : Proceeds received trace (p.act (.wait owner)) := by
  rw [act]
  split
  next envelope promise found =>
    have old := (sound.requests owner _ found).later []
    refine ⟨sound.restages found rfl ⟨old.asked,old.dotted,old.fulfilled,fun response ready => ?_⟩
      fun _ _ => rfl,nofun⟩
    cases promise with
    | none => cases ready
    | some data => rw [Stage.answered.inj ready]
  · exact sound.rests

theorem write_proceeds (sound : p.Sound received trace) (owner : Nat) (accepted : Bool) :
    Proceeds received trace (p.act (.write owner accepted)) := by
  rw [act]
  split
  next envelope promise found =>
    have old := sound.requests owner _ found
    split
    · have still := old.later [.requested envelope]
      refine ⟨sound.restages found rfl ⟨still.asked,still.dotted,still.fulfilled,nofun⟩ fun _ _ => rfl,fun event member => ?_⟩
      rw [List.mem_singleton.mp member]
      exact still.asked
    · have still := old.later []
      exact ⟨sound.restages found rfl ⟨still.asked,still.dotted,still.fulfilled,nofun⟩ fun _ _ => rfl,nofun⟩
  · exact sound.rests

theorem leave_proceeds (sound : p.Sound received trace) (owner : Nat) : Proceeds received trace (p.act (.leave owner)) := by
  rw [act]
  split
  next request found =>
    obtain ⟨next,sent,done,withdraws,reserved⟩ :=
      Dispatcher.performUnregistration_withdraws sound.counted request.replyTopic owner
    rw [done]
    split
    next response _ ready same =>
      obtain rfl := Option.some.inj same
      have old := sound.requests owner request found
      have silent (topic : Str) (entries : List (Callback α)) :
          (sent.map Event.control ++ [Event.returned request.envelope response]).foldl (Event.edit topic) entries = entries := by
        rw [List.foldl_append,foldl_control]
        rfl
      refine ⟨sound.leaves found withdraws silent,fun event member => ?_⟩
      rcases List.mem_append.mp member with control | returned
      · exact controls_fit reserved event control
      · rw [List.mem_singleton.mp returned]
        refine ⟨List.mem_append_left _ old.asked,fun data given => ?_⟩
        -- only an answer makes the call succeed
        cases stage : request.stage with
        | answered answer =>
          rw [stage] at ready
          obtain rfl := Option.some.inj ready
          obtain rfl := Option.some.inj given
          exact old.fulfilled _ (old.answered _ stage)
        | registered => rw [stage] at ready; cases ready
        | waiting => rw [stage] at ready; cases ready
        | refused => rw [stage] at ready; obtain rfl := Option.some.inj ready; cases given
        | expired => rw [stage] at ready; obtain rfl := Option.some.inj ready; cases given
    · exact sound.rests
  · exact sound.rests

theorem invoke_proceeds (sound : p.Sound received trace) : Proceeds received trace (p.act .invoke) := by
  have unchanged : ∀ promise, ∀ request ∈ p.requests.lookup promise, request.Sound received (trace ++ []) :=
    fun promise request found => (sound.requests promise request found).later []
  rw [act]
  split
  · exact sound.rests
  · exact ⟨sound.moves sound.counted rfl (fun _ => rfl) unchanged nofun fun _ => rfl,nofun⟩
  next message calling func data replyTopic rest now =>
    refine ⟨sound.moves sound.counted rfl (fun _ => rfl) unchanged (fun h after => ?_) fun _ => rfl,nofun⟩
    rw [← Option.some.inj after]
    exact ⟨_,now,rfl,List.subset_cons_self _ _⟩
  next message calling promise data replyTopic rest now =>
    refine ⟨sound.moves sound.counted rfl (keeps_fulfil promise data) (fun other request found => ?_)
      (fun h after => ?_) fun _ => rfl,nofun⟩
    · dsimp only at found
      unfold fulfil at found
      split at found
      · exact unchanged other request found
      next old known =>
        obtain ⟨payload,topic⟩ := sound.calls _ now _ List.mem_cons_self promise rfl old known
        have still := (sound.requests promise old known).fulfils (sound.came _ now) topic payload.symm
        exact sound_insert sound (still.later []) other request found
    · rw [← Option.some.inj after]
      exact ⟨_,now,rfl,List.subset_cons_self _ _⟩

theorem reply_proceeds (sound : p.Sound received trace) (inside : Bool) (payload : Str) (accepted : Bool) :
    Proceeds received trace (p.act (.reply inside payload accepted)) := by
  rw [act]
  split
  next message func rest now =>
    split
    next reply made =>
      split
      · refine sound.tells (fun _ _ => rfl) ?_
        cases inside with
        | false => cases made
        | true =>
          rw [sendReplyEnvelope] at made
          split at made
          · cases made
          next topic =>
            rw [← Option.some.inj made]
            exact ⟨sound.came _ now,rfl,by simpa using topic,rfl⟩
      · exact sound.rests
    · exact sound.rests
  · exact sound.rests

theorem act_proceeds (sound : p.Sound received trace) (label : Label α) (came : ∀ message ∈ label.received, received message) :
    Proceeds received trace (p.act label) := by
  cases label with
  | register key func owner scope =>
    rw [act]
    split
    next free =>
      refine ⟨sound.registers key func scope free _,fun event member => ?_⟩
      rcases List.mem_cons.mp member with rfl | control
      · trivial
      · exact controls_fit (Dispatcher.performRegistration_reserved key _ owner scope) event control
    · exact sound.rests
  | unregister key owner =>
    obtain ⟨next,sent,done,withdraws,reserved⟩ := Dispatcher.performUnregistration_withdraws sound.counted key owner
    rw [act,done]
    split
    next free =>
      refine ⟨sound.unregisters withdraws free sent,fun event member => ?_⟩
      rcases List.mem_cons.mp member with rfl | control
      · trivial
      · exact controls_fit reserved event control
    · exact sound.rests
  | status connected =>
    rw [act]
    refine ⟨sound.moves sound.counted rfl (fun _ => rfl)
      (fun promise request found => (sound.requests promise request found).later _)
      (fun h now => ⟨h,now,rfl,fun _ member => member⟩) fun topic => foldl_control topic _ _,?_⟩
    exact controls_fit (Dispatcher.statusHandler_reserved connected)
  | sendMessage key payload accepted =>
    rw [act]
    split
    · exact sound.tells (fun _ _ => rfl) trivial
    · exact sound.rests
  | sendWithReply key payload replyTopic accepted =>
    rw [act]
    split
    · split
      · exact sound.tells (fun _ _ => rfl) trivial
      · exact sound.rests
    · exact sound.rests
  | ask inside requestTopic payload uuid owner =>
    rw [act]
    split
    · split
      · exact sound.tells (fun _ _ => rfl) trivial
      · exact sound.rests
    · split
      next free =>
        have dotted := makeReplyTopic_dotted requestTopic uuid
        refine ⟨sound.asks free dotted _,fun event member => ?_⟩
        rcases List.mem_cons.mp member with rfl | control
        · exact dotted
        · exact controls_fit (Dispatcher.performRegistration_reserved _ _ owner .any) event control
      · exact sound.rests
  | write owner accepted => exact write_proceeds sound owner accepted
  | wait owner => exact wait_proceeds sound owner
  | leave owner => exact leave_proceeds sound owner
  | handle message brokerId =>
    rw [act]
    split
    · exact sound.rests
    · split
      · exact ⟨sound.reports fun topic => foldl_control topic _ _,controls_fit Dispatcher.resubscribeAll_reserved⟩
      · exact (sound.dispatches (came message rfl) brokerId).rests
  | invoke => exact invoke_proceeds sound
  | reply inside payload accepted => exact reply_proceeds sound inside payload accepted

variable {received' : Envelope → Prop}

theorem Sound.hears (sound : p.Sound received trace) (more : ∀ env, received env → received' env) :
    p.Sound received' trace := by
  refine ⟨sound.counted,fun promise request found => ?_,sound.entries,sound.held,sound.single,
    fun h now => more _ (sound.came h now),sound.calls,sound.table⟩
  have old := sound.requests promise request found
  refine ⟨old.asked,old.dotted,fun data given => ?_,old.answered⟩
  obtain ⟨message,came,same⟩ := old.fulfilled data given
  exact ⟨message,more _ came,same⟩

theorem Event.Fits.later {event : Event α} (fits : event.Fits received trace) (more : ∀ env, received env → received' env)
    (events : List (Event α)) : event.Fits received' (trace ++ events) := by
  cases event with
  | requested request => exact List.mem_append_left _ fits
  | replied message reply => exact ⟨more _ fits.1,fits.2⟩
  | returned request response =>
    refine ⟨List.mem_append_left _ fits.1,fun data given => ?_⟩
    obtain ⟨message,came,same⟩ := fits.2 data given
    exact ⟨message,more _ came,same⟩
  | control | asked => exact fits
  | registered | unregistered | published | barred => trivial

/-- The reply topic of a request that is made. -/
def Event.asks : Event α → Option Str
  | .asked request => some request.header.replyTopic
  | _ => none

def Label.asks : Label α → Option Str
  | .ask _ requestTopic _ uuid _ => some (Client.makeReplyTopic requestTopic uuid)
  | _ => none

theorem asks_control (envs : List Envelope) : (envs.map (Event.control (α := α))).filterMap Event.asks = [] := by
  simp [List.filterMap_map,Function.comp_def,Event.asks]

theorem act_asks (label : Label α) : ((p.act label).events.filterMap Event.asks).Sublist label.asks.toList := by
  have none {events : List (Event α)} (silent : events.filterMap Event.asks = []) (topics : List Str) :
      (events.filterMap Event.asks).Sublist topics := by
    rw [silent]
    exact List.nil_sublist topics
  cases label with
  | ask inside requestTopic payload uuid owner =>
    rw [act]
    split
    · split
      · exact none rfl _
      · exact none rfl _
    · split
      · show (List.filterMap Event.asks (Event.asked _ :: List.map Event.control _)).Sublist [_]
        rw [List.filterMap_cons_some (by rfl),asks_control]
        exact List.Sublist.refl _
      · exact none rfl _
  | register =>
    rw [act]
    split
    all_goals exact none (by simp [locked,Event.asks]) _
  | unregister =>
    rw [act]
    repeat' split
    all_goals exact none (by simp [locked,Event.asks]) _
  | status => exact none (asks_control _) _
  | sendMessage | write | wait | sendWithReply | reply =>
    rw [act]
    repeat' split
    all_goals exact none rfl _
  | leave =>
    rw [act]
    repeat' split
    all_goals exact none (by simp [locked,Event.asks]) _
  | handle =>
    rw [act]
    repeat' split
    all_goals exact none (by simp [Event.asks]) _
  | invoke =>
    rw [act]
    repeat' split
    all_goals exact none rfl _

end Party

end Wisp
