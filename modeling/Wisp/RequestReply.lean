import Wisp.PartyTurn

/-! Whose answer a request gets, what it leaves in the table of callbacks, and that a reply
which comes in time is returned. -/
namespace Wisp

open Transition ListTable

/-- A uuid is told from the reply topic made with it. -/
theorem makeReplyTopic_suffix {requestTopic other uuid drawn : Str} (long : uuid.length = drawn.length)
    (same : Client.makeReplyTopic requestTopic uuid = Client.makeReplyTopic other drawn) : uuid = drawn := by
  unfold Client.makeReplyTopic at same
  have tails := (List.append_inj' same (by simp [long])).2
  exact List.append_cancel_left tails

/-- A message without what a broker stamps on it. -/
def Envelope.content (env : Envelope) : Envelope :=
  { env with header := { env.header with messageUuid := [], originBrokerId := [] } }

/-- What a broker says in its own name, which is on no reply topic and asks for no reply. -/
def Envelope.Plain (env : Envelope) : Prop := 46 ∉ env.header.topic ∧ env.header.replyTopic = []

theorem stamp_content (env : Envelope) (m : Moment) (b : Broker) : (b.stamp env m).content = env.content := by
  unfold Broker.stamp
  split <;> rfl

theorem plain_control (key sender : Str) : (Wire.makeControl key sender []).Plain := ⟨List.not_mem_nil,rfl⟩

/-- A broker hands on what it was sent, or speaks for itself. -/
theorem Broker.processMessage_carries {b : Broker} {env carried : Envelope} {senderId : Str} {isFromPeer : Bool} {m : Moment}
    (member : carried ∈ (b.processMessage env senderId isFromPeer m).events.filterMap Output.carried) :
    (carried.content = env.content ∧ Keys.isReservedKey env.header.handlerKey = false) ∨ carried.Plain := by
  have control {output : Output} {identity key : Str} (same : output = m.sendTo identity (Wire.makeControl key b.brokerId []))
      (carries : output.carried = some carried) : carried.Plain := by
    subst same
    unfold Moment.sendTo Output.carried at carries
    split at carries
    next sent =>
      obtain ⟨-,rfl,-⟩ := Output.send.inj sent
      rw [← Option.some.inj carries]
      exact plain_control _ _
    next sent => cases sent
    · cases carries
  obtain ⟨output,reported,carries⟩ := List.mem_filterMap.mp member
  cases processMessage_reports reported with
  | checked => cases carries
  | noted => cases carries
  | routed published fresh shows =>
    refine .inl ⟨?_,published⟩
    have same : carried = b.stamp env m := by
      rcases shows with rfl | ⟨_,accepted,rfl⟩ | ⟨_,accepted,rfl⟩
      · cases carries
      · cases accepted <;> cases carries
        rfl
      · cases accepted <;> cases carries
        rfl
    rw [same,stamp_content]
  | greeted => exact .inr (control rfl carries)
  | acked => exact .inr (control rfl carries)
  | swapped fromClient swap handled =>
    rcases handleSetCluster_outputs handled with ⟨identity,same⟩ | ⟨link,-,brokerId,rfl⟩
    · exact .inr (control same carries)
    · cases carries

theorem Broker.broadcastStats_carries {b : Broker} {carried : Envelope} {pack : SystemStats → Str} {rates : Rates} {m : Moment}
    (member : carried ∈ (b.broadcastStats pack rates m).events.filterMap Output.carried) : carried.Plain := by
  obtain ⟨output,reported,carries⟩ := List.mem_filterMap.mp member
  rcases List.mem_cons.mp reported with rfl | sent
  · cases carries
  · obtain ⟨clientId,-,rfl⟩ := List.mem_map.mp sent
    unfold Moment.sendTo Output.carried at carries
    split at carries
    next same =>
      obtain ⟨-,rfl,-⟩ := Output.send.inj same
      rw [← Option.some.inj carries]
      exact ⟨show 46 ∉ Keys.sysStats by decide,rfl⟩
    next same => cases same
    · cases carries

namespace Exchange

open Party (Event)

variable {α : Type} {s : Exchange α} {trace : List (Nat × Event α)}

/-- What one client reported. -/
def eventsOf (id : Nat) (trace : List (Nat × Event α)) : List (Event α) :=
  (trace.filter fun entry => entry.1 = id).map Prod.snd

@[simp] theorem eventsOf_append (id : Nat) (trace events : List (Nat × Event α)) :
    eventsOf id (trace ++ events) = eventsOf id trace ++ eventsOf id events := by
  rw [eventsOf,List.filter_append,List.map_append]
  rfl

theorem eventsOf_own (id : Nat) (events : List (Event α)) : eventsOf id (events.map (Prod.mk id)) = events := by
  rw [eventsOf,List.filter_eq_self.mpr (by simp),List.map_map]
  exact List.map_id events

theorem eventsOf_other {id other : Nat} (different : id ≠ other) (events : List (Event α)) :
    eventsOf other (events.map (Prod.mk id)) = [] := by
  rw [eventsOf,List.filter_eq_nil_iff.mpr (by simp [different])]
  rfl

theorem mem_eventsOf {id : Nat} {event : Event α} : event ∈ eventsOf id trace ↔ (id,event) ∈ trace := by
  simp [eventsOf]

/-- Everything on its way can be traced to what a client reported, or is a broker's own. -/
structure Traced (trace : List (Nat × Event α)) (s : Exchange α) : Prop where
  parties : ∀ id, (s.party id).Sound (· ∈ s.downlink) (eventsOf id trace)
  events : ∀ entry ∈ trace, entry.2.Fits (· ∈ s.downlink) (eventsOf entry.1 trace)
  uplink : ∀ env ∈ s.uplink, ∃ entry ∈ trace, entry.2.sent = some env
  downlink : ∀ env ∈ s.downlink, env.Plain ∨
    ∃ source ∈ s.uplink, env.content = source.content ∧ Keys.isReservedKey source.header.handlerKey = false

theorem Traced.delivers (traced : s.Traced trace) {more : List Envelope}
    (origin : ∀ env ∈ more, env.Plain ∨
      ∃ source ∈ s.uplink, env.content = source.content ∧ Keys.isReservedKey source.header.handlerKey = false) :
    Traced (trace ++ []) { s with downlink := s.downlink ++ more } := by
  have grows : ∀ env, env ∈ s.downlink → env ∈ s.downlink ++ more := fun env => List.mem_append_left more
  rw [List.append_nil]
  refine ⟨fun id => (traced.parties id).hears grows,fun entry member => ?_,traced.uplink,fun env member => ?_⟩
  · have fits := (traced.events entry member).later grows []
    rwa [List.append_nil] at fits
  · rcases List.mem_append.mp member with old | new
    · exact traced.downlink env old
    · exact origin env new

theorem Traced.acts (traced : s.Traced trace) (id : Nat) {next : Outcome (Party α) (Event α)}
    (proceeds : Party.Proceeds (· ∈ s.downlink) (eventsOf id trace) next) :
    Traced (trace ++ next.events.map (Prod.mk id))
      { s with
        party := Function.update s.party id next.state
        uplink := s.uplink ++ next.events.filterMap Event.sent } := by
  refine ⟨fun other => ?_,fun entry member => ?_,fun env member => ?_,fun env member => ?_⟩
  · dsimp only
    by_cases here : other = id
    · subst here
      rw [Function.update_self,eventsOf_append,eventsOf_own]
      exact proceeds.sound
    · rw [Function.update_of_ne here,eventsOf_append,eventsOf_other (Ne.symm here),List.append_nil]
      exact traced.parties other
  · rw [eventsOf_append]
    rcases List.mem_append.mp member with old | new
    · exact (traced.events entry old).later (fun _ came => came) _
    · obtain ⟨event,reported,rfl⟩ := List.mem_map.mp new
      rw [eventsOf_own]
      exact proceeds.fits event reported
  · rcases List.mem_append.mp member with old | new
    · obtain ⟨entry,reported,sent⟩ := traced.uplink env old
      exact ⟨entry,List.mem_append_left _ reported,sent⟩
    · obtain ⟨event,reported,sent⟩ := List.mem_filterMap.mp new
      exact ⟨(id,event),List.mem_append_right _ (List.mem_map_of_mem reported),sent⟩
  · rcases traced.downlink env member with plain | ⟨source,sent,same⟩
    · exact .inl plain
    · exact .inr ⟨source,List.mem_append_left _ sent,same⟩

theorem step_traced (traced : s.Traced trace) (label : Label α) :
    Traced (trace ++ (step label s).events) (step label s).state := by
  have unchanged : Traced (trace ++ []) s := by rwa [List.append_nil]
  cases label with
  | party id label =>
    rw [step]
    split
    next admitted =>
      refine traced.acts id (Party.act_proceeds (traced.parties id) label fun message taken => ?_)
      rw [Option.mem_def.mp taken] at admitted
      exact of_decide_eq_true admitted
    · exact unchanged
  | route b env senderId isFromPeer m =>
    rw [step]
    split
    next known =>
      refine traced.delivers fun carried member => ?_
      rcases Broker.processMessage_carries member with ⟨same,published⟩ | plain
      · rcases List.mem_append.mp known with sent | passed
        · exact .inr ⟨env,sent,same,published⟩
        · rcases traced.downlink env passed with plain | ⟨source,sent,origin,key⟩
          · -- a broker's own message that another broker routes stays one
            have topic := congrArg (fun content : Envelope => content.header.topic) same
            have reply := congrArg (fun content : Envelope => content.header.replyTopic) same
            exact .inl ⟨topic ▸ plain.1,reply.trans plain.2⟩
          · exact .inr ⟨source,sent,same.trans origin,key⟩
      · exact .inl plain
    · exact unchanged
  | stats b pack rates m => exact traced.delivers fun carried member => .inl (Broker.broadcastStats_carries member)

theorem start_traced (clientId : Nat → Str) : Traced [] (start clientId : Exchange α) := by
  have none (promise : Nat) (request : Party.Request) :
      request ∉ AList.lookup promise (∅ : AList fun _ : Nat => Party.Request) := by
    rintro ⟨⟩
  refine ⟨fun id => ⟨rfl,fun promise request found => absurd found (none promise request),fun key entry never => ?_,
    fun promise request found => absurd found (none promise request),fun key => List.nodup_nil,nofun,nofun,
    fun topic => rfl⟩,nofun,nofun,nofun⟩
  cases never

theorem run_traced (clientId : Nat → Str) (labels : List (Label α)) :
    Traced (run step labels (start clientId)).events (run step labels (start clientId)).state :=
  run_reports step (fun s trace => s.Traced trace) (fun _ _ label traced => step_traced traced label) labels _
    (start_traced clientId)

end Exchange

namespace Party

variable {α : Type} {p : Party α} {requests : AList fun _ : Nat => Request} {request : Request} {owner : Nat} {data : Str}

theorem fulfil_lookup (promise : Nat) (data : Str) (found : requests.lookup owner = some request) :
    (fulfil promise data requests).lookup owner =
      some (if promise = owner then { request with promise := request.promise.or (some data) } else request) := by
  unfold fulfil
  split
  next missing =>
    rw [found,if_neg]
    rintro rfl
    rw [found] at missing
    cases missing
  next other here =>
    split
    next same =>
      subst same
      rw [AList.lookup_insert,Option.some.inj (here.symm.trans found)]
    next different => rw [AList.lookup_insert_ne (Ne.symm different),found]

/-- The callback of a request is called for a message on its reply topic, whatever its origin. -/
theorem Sound.called {received : Envelope → Prop} {trace : List (Event α)} (sound : p.Sound received trace)
    (found : p.requests.lookup owner = some request) {message : Envelope}
    (topic : message.header.topic = request.replyTopic) (brokerId : Option Str) :
    ∃ invocation ∈ p.dispatcher.handleMessage brokerId message, owner ∈ invocation.func.promise? := by
  have held := sound.held owner request found
  rw [← topic] at held
  refine ⟨⟨.fulfil owner,message.payload,message.header.replyTopic⟩,?_,rfl⟩
  rw [Dispatcher.handleMessage,Dispatcher.handle_eq]
  refine List.mem_filterMap.mpr ⟨_,List.mem_filter.mpr ⟨List.mem_append_left _ held,?_⟩,rfl⟩
  exact scopeAccepts_any _

/-- What the two threads of a client do for a call: the calls of a turn, and then the
caller's way out. -/
def returning (calls owner : Nat) : List (Label α) := List.replicate calls .invoke ++ [.wait owner,.leave owner]

/-- The processing thread handles a message, and a call wakes up and returns. -/
def waking (message : Envelope) (brokerId : Option Str) (calls owner : Nat) : List (Label α) :=
  .handle message brokerId :: returning calls owner

/-- A call in progress whose reply is being handed over or was, with what its two threads
still have to do before it returns. -/
inductive Answering (owner : Nat) (envelope : Envelope) (data : Str) (p : Party α) : List (Label α) → Prop where
  | called {message : Envelope} {calling : Option α} {rest : List (Invocation (Reaction α))}
      (busy : p.handling = some ⟨message,calling,rest⟩)
      (found : p.requests.lookup owner = some ⟨envelope,.waiting,none⟩)
      (calls : ∃ invocation ∈ rest, owner ∈ invocation.func.promise?)
      (hands : ∀ invocation ∈ rest, invocation.data = data) :
      Answering owner envelope data p (returning rest.length owner)
  | given (found : p.requests.lookup owner = some ⟨envelope,.waiting,some data⟩) :
      Answering owner envelope data p [.wait owner,.leave owner]
  | woken (found : p.requests.lookup owner = some ⟨envelope,.answered data,some data⟩) :
      Answering owner envelope data p [.leave owner]

variable {envelope : Envelope} {script : List (Label α)}

theorem Answering.found (answering : Answering owner envelope data p script) :
    ∃ request ∈ p.requests.lookup owner, request.envelope = envelope ∧
      (request.stage = .waiting ∨ request.stage = .answered data) := by
  cases answering with
  | called _ found => exact ⟨_,found,rfl,.inl rfl⟩
  | given found => exact ⟨_,found,rfl,.inl rfl⟩
  | woken found => exact ⟨_,found,rfl,.inr rfl⟩

theorem Answering.ne_nil (answering : Answering owner envelope data p script) : script ≠ [] := by
  cases answering <;> simp [returning]

theorem Answering.plays (answering : Answering owner envelope data p script) {label : Label α} (member : label ∈ script) :
    label = .invoke ∨ label = .wait owner ∨ label = .leave owner := by
  have last : label ∈ ([.wait owner,.leave owner] : List (Label α)) → label = .wait owner ∨ label = .leave owner := by simp
  cases answering with
  | called =>
    rcases List.mem_append.mp member with invokes | later
    · exact .inl (List.eq_of_mem_replicate invokes)
    · exact .inr (last later)
  | given => exact .inr (last member)
  | woken => exact .inr (last (List.mem_cons_of_mem _ member))

/-- What is left of a script once its next label has been played. -/
def Leaves (script played left : List (Label α)) : Prop :=
  ∀ rest, script.Sublist (played ++ rest) → left.Sublist rest

theorem leaves_tail {label : Label α} {left : List (Label α)} (next : left.Sublist script.tail) :
    Leaves script [label] left :=
  fun _ played => next.trans played.tail

theorem leaves_same {label : Label α} (apart : script.head? ≠ some label) : Leaves script [label] script := by
  intro rest played
  rcases List.sublist_cons_iff.mp played with later | ⟨left,rfl,-⟩
  · exact later
  · exact absurd rfl apart

/-- The call goes on through whatever leaves it and the turn of the thread alone. -/
theorem Answering.still (answering : Answering owner envelope data p script) {p' : Party α}
    (lookup : p'.requests.lookup owner = p.requests.lookup owner) (turn : ∀ h ∈ p.handling, h ∈ p'.handling) :
    Answering owner envelope data p' script := by
  cases answering with
  | called busy found calls hands => exact .called (turn _ busy) (lookup.trans found) calls hands
  | given found => exact .given (lookup.trans found)
  | woken found => exact .woken (lookup.trans found)

/-- A step brings the call to its end with the reply, or leaves it nearer to that or as it was. -/
def Nears (owner : Nat) (envelope : Envelope) (data : Str) (script played : List (Label α))
    (next : Outcome (Party α) (Event α)) : Prop :=
  .returned envelope (some data) ∈ next.events ∨
    ∃ left, Answering owner envelope data next.state left ∧ Leaves script played left

theorem Answering.aside (answering : Answering owner envelope data p script) {label : Label α}
    (aside : ¬(label = .invoke ∨ label = .wait owner ∨ label = .leave owner)) {next : Outcome (Party α) (Event α)}
    (lookup : next.state.requests.lookup owner = p.requests.lookup owner)
    (turn : ∀ h ∈ p.handling, h ∈ next.state.handling) : Nears owner envelope data script [label] next :=
  .inr ⟨script,answering.still lookup turn,leaves_same fun head => aside (answering.plays (List.mem_of_mem_head? head))⟩

theorem Answering.invoke (answering : Answering owner envelope data p script) :
    Nears owner envelope data script [.invoke] (p.act .invoke) := by
  -- a promise that has its value keeps it
  have keeps {stage : Stage} (found : p.requests.lookup owner = some ⟨envelope,stage,some data⟩) :
      (p.act .invoke).state.requests.lookup owner = some ⟨envelope,stage,some data⟩ := by
    rw [act]
    split
    · exact found
    · exact found
    · exact found
    next promise payload _ rest _ =>
      refine (fulfil_lookup promise payload found).trans ?_
      split <;> rfl
  cases answering with
  | given found => exact .inr ⟨_,.given (keeps found),leaves_same (by simp)⟩
  | woken found => exact .inr ⟨_,.woken (keeps found),leaves_same (by simp)⟩
  | @called message calling rest busy found calls hands =>
    rw [act,busy]
    cases rest with
    | nil =>
      obtain ⟨invocation,never,-⟩ := calls
      cases never
    | cons invocation rest =>
      rw [List.exists_mem_cons_iff] at calls
      rw [List.forall_mem_cons] at hands
      obtain ⟨func,payload,replyTopic⟩ := invocation
      cases func with
      | app func =>
        exact .inr ⟨_,.called rfl found (calls.resolve_left (by rintro ⟨⟩)) hands.2,leaves_tail (List.Sublist.refl _)⟩
      | fulfil promise =>
        have next := fulfil_lookup promise payload found
        by_cases here : promise = owner
        · obtain rfl : payload = data := hands.1
          rw [if_pos here] at next
          exact .inr ⟨_,.given next,leaves_tail (List.sublist_append_right _ _)⟩
        · rw [if_neg here] at next
          have later := calls.resolve_left fun same => here (Option.some.inj same)
          exact .inr ⟨_,.called rfl next later hands.2,leaves_tail (List.Sublist.refl _)⟩

/-- The wait ends with the value, unless it was given up before. -/
theorem Answering.wait (answering : Answering owner envelope data p script)
    (inTime : ∀ request ∈ p.requests.lookup owner, request.envelope = envelope → request.promise ≠ none) :
    Nears owner envelope data script [.wait owner] (p.act (.wait owner)) := by
  cases answering with
  | called busy found => exact absurd rfl (inTime _ found rfl)
  | given found =>
    rw [act,found]
    exact .inr ⟨_,.woken (AList.lookup_insert _),leaves_tail (List.Sublist.refl _)⟩
  | woken found =>
    rw [act,found]
    exact .inr ⟨_,.woken found,leaves_same (by simp)⟩

theorem Answering.leave {received : Envelope → Prop} {trace : List (Event α)} (sound : p.Sound received trace)
    (answering : Answering owner envelope data p script) :
    Nears owner envelope data script [.leave owner] (p.act (.leave owner)) := by
  cases answering with
  | @called message calling rest busy found calls hands =>
    rw [act,found]
    refine .inr ⟨_,.called busy found calls hands,leaves_same ?_⟩
    cases rest with
    | nil =>
      obtain ⟨invocation,never,-⟩ := calls
      cases never
    | cons => simp [returning,List.replicate_succ]
  | given found =>
    rw [act,found]
    exact .inr ⟨_,.given found,leaves_same (by simp)⟩
  | woken found =>
    obtain ⟨next,sent,done,-⟩ :=
      Dispatcher.performUnregistration_withdraws sound.counted envelope.header.replyTopic owner
    rw [act,found]
    dsimp only [Request.replyTopic,Stage.result?]
    rw [done]
    exact .inl (List.mem_append_right _ List.mem_cons_self)

/-- Whatever the client does, short of giving up, brings the call to its reply or leaves it there. -/
theorem Answering.act {received : Envelope → Prop} {trace : List (Event α)} (sound : p.Sound received trace)
    (answering : Answering owner envelope data p script) (label : Label α)
    (inTime : label = .wait owner → ∀ request ∈ p.requests.lookup owner, request.envelope = envelope → request.promise ≠ none) :
    Nears owner envelope data script [label] (p.act label) := by
  obtain ⟨request,found,-,stage⟩ := answering.found
  have known : owner ∈ p.requests := AList.lookup_isSome.mp (Option.isSome_of_mem found)
  cases label with
  | register key func other scope =>
    refine answering.aside (by simp) ?_ ?_ <;> rw [Party.act] <;> split <;> simp [locked]
  | unregister key other =>
    refine answering.aside (by simp) ?_ ?_ <;> rw [Party.act] <;> split <;> try split
    all_goals simp [locked]
  | status connected => exact answering.aside (by simp) rfl fun _ now => now
  | sendMessage key payload accepted => exact answering.aside (by simp) rfl fun _ now => now
  | sendWithReply key payload replyTopic accepted =>
    refine answering.aside (by simp) ?_ ?_ <;> rw [Party.act] <;> split <;> simp
  | ask inside requestTopic payload uuid other =>
    rw [Party.act]
    split
    · exact answering.aside (by simp) rfl fun _ now => now
    · split
      next free =>
        have apart : owner ≠ other := by
          rintro rfl
          simp [addressFree,known] at free
        exact answering.aside (by simp) (AList.lookup_insert_ne apart) fun _ now => now
      · exact answering.aside (by simp) rfl fun _ now => now
  | write other accepted =>
    rw [Party.act]
    split
    next envelope promise first =>
      have apart : owner ≠ other := by
        rintro rfl
        rw [Option.some.inj (found.symm.trans first)] at stage
        rcases stage with waits | answers
        · cases waits
        · cases answers
      split
      · exact answering.aside (by simp) (AList.lookup_insert_ne apart) fun _ now => now
      · exact answering.aside (by simp) (AList.lookup_insert_ne apart) fun _ now => now
    · exact answering.aside (by simp) rfl fun _ now => now
  | wait other =>
    by_cases here : other = owner
    · subst here
      exact answering.wait (inTime rfl)
    · have apart : owner ≠ other := Ne.symm here
      refine answering.aside (by simpa using here) ?_ ?_ <;> rw [Party.act] <;> split
      · exact AList.lookup_insert_ne apart
      · rfl
      · exact fun _ now => now
      · exact fun _ now => now
  | leave other =>
    by_cases here : other = owner
    · subst here
      exact answering.leave sound
    · have apart : owner ≠ other := Ne.symm here
      refine answering.aside (by simpa using here) ?_ ?_ <;> rw [Party.act] <;> split <;> try split
      · exact AList.lookup_erase_ne apart
      · rfl
      · rfl
      · exact fun _ now => now
      · exact fun _ now => now
      · exact fun _ now => now
  | handle message brokerId =>
    rw [Party.act]
    split
    · exact answering.aside (by simp) rfl fun _ now => now
    next idle =>
      split
      · exact answering.aside (by simp) rfl fun _ now => now
      · refine answering.aside (by simp) rfl fun h now => ?_
        rw [idle] at now
        cases now
  | invoke => exact answering.invoke
  | reply inside payload accepted =>
    refine answering.aside (by simp) ?_ ?_ <;> rw [Party.act] <;> split <;> try split
    all_goals simp

end Party

namespace Exchange

open Party (Event)

variable {α : Type} {s : Exchange α} {trace : List (Nat × Event α)}

/-- What the label has one client do. -/
def Label.act? (id : Nat) : Label α → Option (Party.Label α)
  | .party other label => if other = id then some label else none
  | .route .. | .stats .. => none

/-- The wait of the call ends with a value, and not because its time is up. -/
def InTime (id owner : Nat) (envelope : Envelope) (s : Exchange α) : Label α → Prop
  | .party other (.wait promise) => other = id → promise = owner →
      ∀ request ∈ (s.party id).requests.lookup owner, request.envelope = envelope → request.promise ≠ none
  | _ => True

instance decidableInTime (id owner : Nat) (envelope : Envelope) (s : Exchange α) :
    ∀ label : Label α, Decidable (InTime id owner envelope s label)
  | .party _ (.wait _) => inferInstanceAs (Decidable (_ → _ → ∀ request ∈ (s.party id).requests.lookup owner, _))
  | .party _ (.register ..) | .party _ (.unregister ..) | .party _ (.status _) | .party _ (.sendMessage ..)
  | .party _ (.sendWithReply ..) | .party _ (.ask ..) | .party _ (.write ..) | .party _ (.leave _)
  | .party _ (.handle ..) | .party _ .invoke | .party _ (.reply ..) | .route .. | .stats .. => .isTrue trivial

variable {id owner : Nat} {envelope : Envelope} {data : Str} {script : List (Party.Label α)}

theorem step_answering (traced : s.Traced trace) (answering : (s.party id).Answering owner envelope data script)
    (label : Label α) (inTime : InTime id owner envelope s label) :
    (id,.returned envelope (some data)) ∈ (step label s).events ∨
      ∃ left, ((step label s).state.party id).Answering owner envelope data left ∧
        Party.Leaves script (label.act? id).toList left := by
  have rests : Party.Leaves script [] script := fun _ played => played
  cases label with
  | party other label =>
    rw [step]
    by_cases here : other = id
    · subst here
      rw [Label.act?,if_pos rfl]
      split
      · have nears := answering.act (traced.parties other) label (by rintro rfl; exact inTime rfl rfl)
        rcases nears with returned | ⟨left,next,leaves⟩
        · exact .inl (List.mem_map_of_mem returned)
        · refine .inr ⟨left,?_,leaves⟩
          dsimp only
          rwa [Function.update_self]
      next refused =>
        -- only a message that did not come is refused, and no script plays one
        refine .inr ⟨script,answering,Party.leaves_same fun head => refused ?_⟩
        rcases answering.plays (List.mem_of_mem_head? head) with rfl | rfl | rfl <;> rfl
    · rw [Label.act?,if_neg here]
      refine .inr ⟨script,?_,rests⟩
      split
      · dsimp only
        rwa [Function.update_of_ne (Ne.symm here)]
      · exact answering
  | route b env senderId isFromPeer m =>
    refine .inr ⟨script,?_,rests⟩
    rw [step]
    split <;> exact answering
  | stats b pack rates m => exact .inr ⟨script,answering,rests⟩

theorem run_answering (traced : s.Traced trace) (answering : (s.party id).Answering owner envelope data script)
    (later : List (Label α)) (inTime : Always step (InTime id owner envelope) later s) :
    (id,.returned envelope (some data)) ∈ (run step later s).events ∨
      ∃ left, ((run step later s).state.party id).Answering owner envelope data left ∧
        Party.Leaves script (later.filterMap (Label.act? id)) left := by
  induction later generalizing s trace script with
  | nil => exact .inr ⟨script,answering,fun _ played => played⟩
  | cons label later ih =>
    rcases step_answering traced answering label inTime.1 with returned | ⟨left,next,leaves⟩
    · exact .inl (List.mem_append_left _ returned)
    · rcases ih (step_traced traced label) next inTime.2 with returned | ⟨last,after,rest⟩
      · exact .inl (List.mem_append_right _ returned)
      · refine .inr ⟨last,after,fun more played => rest more (leaves _ ?_)⟩
        cases acts : label.act? id <;> simpa [acts] using played

/-- A reply that is handled while its request waits is what the request returns, whatever
happens from then on: the call stays in progress until it returns that reply, unless it gives up
before the callback has run; and it does return once the thread has made its calls and the
caller has waited and left, however much else happens between these steps. -/
theorem reply_is_returned (clientId : Nat → Str) (labels : List (Label α)) {id owner : Nat} {request : Party.Request}
    {message : Envelope} (brokerId : Option Str)
    (found : ((run step labels (start clientId)).state.party id).requests.lookup owner = some request)
    (waits : request.stage = .waiting) (unanswered : request.promise = none)
    (idle : ((run step labels (start clientId)).state.party id).handling = none)
    (came : message ∈ (run step labels (start clientId)).state.downlink)
    (topic : message.header.topic = request.replyTopic) (key : message.header.handlerKey ≠ Keys.reset)
    (later : List (Label α))
    (inTime : Always step (InTime id owner request.envelope) later
      (step (.party id (.handle message brokerId)) (run step labels (start clientId)).state).state) :
    let s := (run step labels (start clientId)).state
    let after := run step later (step (.party id (.handle message brokerId)) s).state
    ((id,.returned request.envelope (some message.payload)) ∈ after.events ∨
      ∃ now ∈ (after.state.party id).requests.lookup owner, now.envelope = request.envelope ∧
        (now.stage = .waiting ∨ now.stage = .answered message.payload)) ∧
    ((Party.returning ((s.party id).dispatcher.handleMessage brokerId message).length owner).Sublist
        (later.filterMap (Label.act? id)) →
      (id,.returned request.envelope (some message.payload)) ∈ after.events) := by
  intro s after
  have traced := run_traced clientId labels
  obtain ⟨envelope,stage,promise⟩ := request
  obtain rfl : stage = .waiting := waits
  obtain rfl : promise = none := unanswered
  have handles : (step (.party id (.handle message brokerId)) s).state.party id =
      { s.party id with handling := some ⟨message,none,(s.party id).dispatcher.handleMessage brokerId message⟩ } := by
    have admitted : (Party.Label.handle message brokerId : Party.Label α).received.all (· ∈ s.downlink) = true :=
      decide_eq_true came
    rw [step,if_pos admitted]
    dsimp only
    rw [Function.update_self,Party.act,show (s.party id).handling = none from idle,if_neg key]
  have answering : ((step (.party id (.handle message brokerId)) s).state.party id).Answering owner envelope message.payload
      (Party.returning ((s.party id).dispatcher.handleMessage brokerId message).length owner) := by
    rw [handles]
    exact .called rfl found ((traced.parties id).called found topic brokerId)
      fun invocation member => (Dispatcher.handleMessage_called member).1
  rcases run_answering (step_traced traced _) answering later inTime with returned | ⟨left,next,leaves⟩
  · exact ⟨.inl returned,fun _ => returned⟩
  · refine ⟨.inr next.found,fun played => absurd ?_ next.ne_nil⟩
    exact List.sublist_nil.mp (leaves [] (by rwa [List.append_nil]))

/-- A broker with one client, subscribed to one topic. -/
def serving (clientId topic : Str) : Broker :=
  let b := (Broker.new (str "A") [] none).touch clientId 0
  { b with toRouting := b.subscribe clientId topic .any }

def named (id : Nat) : Str := str "c" ++ [48 + id.toUInt8]

def ping : Envelope :=
  Client.makeRequest (str "svc") (str "ping") (List.replicate 36 49) { clientId := named 0 }

def answer : Envelope :=
  { header := { handlerKey := ping.header.replyTopic, senderId := named 1, topic := ping.header.replyTopic }
    payload := str "pong" }

/-- Client 1 serves a topic; client 0 asks, and client 1 answers. -/
def roundTrip : List (Label Nat) :=
  let request := (serving (named 1) (str "svc")).stamp ping (.roomy (str "u"))
  [.party 1 (.register (str "svc") (some 7) 0 .any),.party 0 (.ask false (str "svc") (str "ping") (List.replicate 36 49) 1),
    .party 0 (.write 1 true),.route (serving (named 1) (str "svc")) ping (named 0) false (.roomy (str "u")),
    .party 1 (.handle request none),.party 1 .invoke,.party 1 (.reply true (str "pong") true),
    .route (serving (named 0) ping.header.replyTopic) answer (named 1) false (.roomy (str "v"))]

def pong : Envelope := (serving (named 0) ping.header.replyTopic).stamp answer (.roomy (str "v"))

/-- Client 1 replies once more while it handles the request. -/
def repliedTwice : List (Label Nat) :=
  let again : Envelope := { answer with payload := str "late" }
  roundTrip ++ [.party 1 (.reply true (str "late") true),
    .route (serving (named 0) ping.header.replyTopic) again (named 1) false (.roomy (str "w"))]

/-- The second reply is handled, and the connection comes up anew, before the caller wakes up. -/
def lateReply : List (Label Nat) :=
  let late := (serving (named 0) ping.header.replyTopic).stamp { answer with payload := str "late" } (.roomy (str "w"))
  [.party 0 .invoke,.party 0 .invoke,.party 0 (.handle late none),.party 0 .invoke,.party 1 .invoke,.party 0 (.status true),
    .party 0 (.wait 1),.party 0 .invoke,.party 0 (.leave 1)]

theorem reply_is_returned_pong :
    ((run step repliedTwice (start named)).state.party 0).requests.lookup 1 = some ⟨ping,.waiting,none⟩ ∧
      (0,.returned ping (some (str "pong"))) ∈
        (run step lateReply (step (.party 0 (.handle pong none)) (run step repliedTwice (start named)).state).state).events :=
  have found : ((run step repliedTwice (start named)).state.party 0).requests.lookup 1 = some ⟨ping,.waiting,none⟩ := by
    decide +kernel
  have idle : ((run step repliedTwice (start named)).state.party 0).handling = none :=
    Option.isNone_iff_eq_none.mp (by decide +kernel)
  have calls : (((run step repliedTwice (start named)).state.party 0).dispatcher.handleMessage none pong).length = 1 := by
    decide +kernel
  have returns := (reply_is_returned named repliedTwice none found rfl rfl idle (by decide +kernel : pong ∈ _)
    (by decide +kernel) (by decide +kernel) lateReply (by decide +kernel)).2
  ⟨found,returns (by
    rw [calls]
    exact .cons_cons _ (.cons _ (.cons _ (.cons _ (.cons _ (.cons_cons _ (.cons _ (.cons_cons _ .slnil))))))))⟩

/-- The reply topic a label asks to be answered on. -/
def Label.asks : Label α → Option Str
  | .party _ label => label.asks
  | .route .. | .stats .. => none

theorem run_asks (labels : List (Label α)) (s : Exchange α) :
    ((run step labels s).events.filterMap fun entry => entry.2.asks).Sublist (labels.filterMap Label.asks) := by
  induction labels generalizing s with
  | nil => exact List.Sublist.refl _
  | cons label rest ih =>
    have first : ((step label s).events.filterMap fun entry => entry.2.asks).Sublist label.asks.toList := by
      cases label with
      | party id label =>
        rw [step]
        split
        · rw [List.filterMap_map]
          exact Party.act_asks label
        · exact List.nil_sublist _
      | route b env senderId isFromPeer m =>
        rw [step]
        split <;> exact List.nil_sublist _
      | stats b pack rates m => exact List.nil_sublist _
    have split : (label :: rest).filterMap Label.asks = label.asks.toList ++ rest.filterMap Label.asks := by
      cases asks : label.asks <;> simp [asks]
    rw [run,List.filterMap_append,split]
    exact first.append (ih _)

/-- Uuids that differ make reply topics that differ. -/
theorem asks_nodup {labels : List (Label α)} (uuids : ∀ uuid ∈ labels.filterMap Label.drawn, uuid.length = 36)
    (fresh : (labels.filterMap Label.drawn).Nodup) : (labels.filterMap Label.asks).Nodup := by
  have drawn {label : Label α} {topic : Str} (asks : topic ∈ label.asks) :
      ∃ requestTopic, ∃ uuid ∈ label.drawn, topic = Client.makeReplyTopic requestTopic uuid := by
    cases label with
    | party id label =>
      cases label with
      | ask inside requestTopic payload uuid owner => exact ⟨requestTopic,uuid,rfl,(Option.some.inj asks).symm⟩
      | _ => cases asks
    | _ => cases asks
  refine List.pairwise_filterMap.mpr ((List.pairwise_filterMap.mp fresh).imp_of_mem ?_)
  intro label other here there apart topic asks again same same'
  obtain ⟨requestTopic,uuid,draws,rfl⟩ := drawn asks
  obtain ⟨otherTopic,uuid',draws',equal⟩ := drawn same
  refine apart uuid draws uuid' draws' (makeReplyTopic_suffix ?_ (same'.trans equal))
  rw [uuids uuid (List.mem_filterMap.mpr ⟨label,here,draws⟩),uuids uuid' (List.mem_filterMap.mpr ⟨other,there,draws'⟩)]

/-- Each request is made on a reply topic of its own. -/
theorem asked_once (nodup : (trace.filterMap fun entry => entry.2.asks).Nodup) {id other : Nat} {request request' : Envelope}
    (here : (id,.asked request) ∈ trace) (there : (other,.asked request') ∈ trace)
    (same : request.header.replyTopic = request'.header.replyTopic) : request = request' := by
  by_contra different
  have symmetric : Std.Symm fun entry entry' : Nat × Event α =>
      ∀ topic ∈ entry.2.asks, ∀ topic' ∈ entry'.2.asks, topic ≠ topic' :=
    ⟨fun _ _ apart topic asks topic' asks' => (apart topic' asks' topic asks).symm⟩
  have apart := (List.pairwise_filterMap.mp nodup).forall here there
    fun equal => different (Event.asked.inj (Prod.mk.inj equal).2)
  exact apart _ rfl _ rfl same

end Exchange

/-- The application put the topic into a message by hand: as the topic it published on, as the
one it asked somebody to reply to, or as that of a request. -/
def Party.Event.Names {α : Type} (topic : Str) : Event α → Prop
  | .published env => env.header.topic = topic ∨ env.header.replyTopic = topic
  | .requested request => request.header.topic = topic
  | _ => False

namespace Exchange

open Party (Event)

variable {α : Type} {s : Exchange α} {trace : List (Nat × Event α)}

/-- What came in on a reply topic was sent there, by a reply to a message that asked for it. -/
theorem Traced.replied (traced : s.Traced trace) {topic : Str} (dotted : 46 ∈ topic) {env : Envelope}
    (came : env ∈ s.downlink) (here : env.header.topic = topic) :
    (∃ other message reply, (other,.replied message reply) ∈ trace ∧ message ∈ s.downlink ∧
      message.header.replyTopic = topic ∧ reply.payload = env.payload) ∨ ∃ entry ∈ trace, entry.2.Names topic := by
  rcases traced.downlink env came with plain | ⟨source,sent,same,published⟩
  · exact absurd (here ▸ dotted) plain.1
  · have onTopic : source.header.topic = topic :=
      (congrArg (fun content : Envelope => content.header.topic) same).symm.trans here
    obtain ⟨⟨other,event⟩,reported,sends⟩ := traced.uplink source sent
    have fits := traced.events _ reported
    cases event with
    | control env =>
      obtain rfl := Option.some.inj sends
      rw [show Keys.isReservedKey _ = true from fits] at published
      cases published
    | published env =>
      obtain rfl := Option.some.inj sends
      exact .inr ⟨_,reported,.inl onTopic⟩
    | requested request =>
      obtain rfl := Option.some.inj sends
      exact .inr ⟨_,reported,onTopic⟩
    | replied message reply =>
      obtain rfl := Option.some.inj sends
      exact .inl ⟨other,message,reply,reported,fits.1,fits.2.1 ▸ onTopic,(congrArg Envelope.payload same).symm⟩
    | _ => cases sends

/-- A message that asks for a reply on the topic is the request made on it. -/
theorem Traced.requested (traced : s.Traced trace) {topic : Str} (dotted : 46 ∈ topic) {message : Envelope}
    (came : message ∈ s.downlink) (asks : message.header.replyTopic = topic) :
    (∃ other request, (other,.asked request) ∈ trace ∧ request.header.replyTopic = topic ∧
      message.content = request.content) ∨ ∃ entry ∈ trace, entry.2.Names topic := by
  have nonempty : topic ≠ [] := by
    rintro rfl
    cases dotted
  rcases traced.downlink message came with plain | ⟨source,sent,same,published⟩
  · exact absurd (asks.symm.trans plain.2) nonempty
  · have onTopic : source.header.replyTopic = topic :=
      (congrArg (fun content : Envelope => content.header.replyTopic) same).symm.trans asks
    obtain ⟨⟨other,event⟩,reported,sends⟩ := traced.uplink source sent
    have fits := traced.events _ reported
    cases event with
    | control env =>
      obtain rfl := Option.some.inj sends
      rw [show Keys.isReservedKey _ = true from fits] at published
      cases published
    | published env =>
      obtain rfl := Option.some.inj sends
      exact .inr ⟨_,reported,.inr onTopic⟩
    | requested request =>
      obtain rfl := Option.some.inj sends
      exact .inl ⟨other,request,mem_eventsOf.mp fits,onTopic,same⟩
    | replied message reply =>
      obtain rfl := Option.some.inj sends
      exact absurd (onTopic.symm.trans fits.2.2.2) nonempty
    | _ => cases sends

/-- Whatever the clients do and the brokers and links make of the messages, a request that
succeeds returns what somebody replied while handling that very request, unless an
application has put its reply topic into a message by hand. -/
theorem response_answers_request (clientId : Nat → Str) (labels : List (Label α))
    (uuids : ∀ uuid ∈ labels.filterMap Label.drawn, uuid.length = 36) (fresh : (labels.filterMap Label.drawn).Nodup)
    {id : Nat} {request : Envelope} {response : Str}
    (returned : (id,.returned request (some response)) ∈ (run step labels (start clientId)).events) :
    (∃ other message reply, (other,.replied message reply) ∈ (run step labels (start clientId)).events ∧
      message.content = request.content ∧ reply.payload = response) ∨
    ∃ entry ∈ (run step labels (start clientId)).events, entry.2.Names request.header.replyTopic := by
  have traced := run_traced clientId labels
  have nodup := (asks_nodup uuids fresh).sublist (run_asks labels (start clientId))
  obtain ⟨asked,answered⟩ := traced.events _ returned
  have made := mem_eventsOf.mp asked
  have dotted : 46 ∈ request.header.replyTopic := traced.events _ made
  obtain ⟨answer,came,topic,rfl⟩ := answered response rfl
  rcases traced.replied dotted came topic with ⟨other,message,reply,replied,heard,asks,same⟩ | named
  · rcases traced.requested dotted heard asks with ⟨asker,origin,again,onTopic,content⟩ | named
    · obtain rfl := asked_once nodup again made onTopic
      exact .inl ⟨other,message,reply,replied,content,same⟩
    · exact .inr named
  · exact .inr named

theorem response_answers_request_pong :
    let labels := roundTrip ++ (Party.waking pong none 2 1).map (.party 0)
    (0,.returned ping (some (str "pong"))) ∈ (run step labels (start named)).events ∧
    ((∃ other message reply, (other,.replied message reply) ∈ (run step labels (start named)).events ∧
      message.content = ping.content ∧ reply.payload = str "pong") ∨
    ∃ entry ∈ (run step labels (start named)).events, entry.2.Names ping.header.replyTopic) :=
  have returned : (0,.returned ping (some (str "pong"))) ∈
      (run step (roundTrip ++ (Party.waking pong none 2 1).map (.party 0)) (start named)).events := by
    decide +kernel
  ⟨returned,response_answers_request named _ (by decide) (by decide) returned⟩

/-- A request leaves the application's own callbacks alone, and nothing of its own behind:
all through a run the application's callbacks for a topic are those it registered and did not
withdraw, in order, and the others are one for each request in progress on that topic. -/
theorem requests_leave_callbacks (clientId : Nat → Str) (labels : List (Label α)) (id : Nat) (topic : Str) :
    let p := (run step labels (start clientId)).state.party id
    let callbacks := listed topic p.dispatcher.handlers
    callbacks.filterMap Callback.app? = Party.replay topic (eventsOf id (run step labels (start clientId)).events) ∧
    (callbacks.filterMap Callback.promise?).Nodup ∧ ∀ promise, promise ∈ callbacks.filterMap Callback.promise? ↔
      ∃ request ∈ p.requests.lookup promise, request.replyTopic = topic := by
  have sound := (run_traced clientId labels).parties id
  refine ⟨sound.table topic,sound.single topic,fun promise => ⟨fun member => ?_,?_⟩⟩
  · obtain ⟨entry,stored,kind⟩ := List.mem_filterMap.mp member
    have belongs := sound.entries topic entry stored
    rw [Party.Belongs,kind] at belongs
    exact belongs.2
  · rintro ⟨request,found,here⟩
    have held := sound.held promise request found
    rw [here] at held
    exact List.mem_filterMap.mpr ⟨_,held,rfl⟩

end Exchange

end Wisp
