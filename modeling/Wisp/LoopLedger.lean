import Wisp.LoopOrder

/-! What the loop counts is what happened: messages, bytes and drops, the lines about
malformed traffic, and the drops of each client for as long as it has its session. -/
namespace Wisp

open Transition

/-- A copy that found no room. -/
def Output.refused : Output → Nat
  | .send _ _ accepted => if accepted then 0 else 1
  | .flood _ _ accepted => if accepted then 0 else 1
  | _ => 0

def Output.refusedTo (clientId : Str) : Output → Nat
  | .send identity _ accepted => if identity = clientId ∧ !accepted then 1 else 0
  | _ => 0

/-- The answers to control messages. -/
def Output.isControl : Output → Bool
  | .send _ env _ => Keys.isReservedKey env.header.handlerKey
  | _ => false

/-- The refused copies of routed messages. -/
def Output.lost (output : Output) : Nat := if output.isControl then 0 else output.refused

def Output.lostTo (clientId : Str) (output : Output) : Nat := if output.isControl then 0 else output.refusedTo clientId

namespace Broker

open BrokerLoop (SameTotals removePeers_same)

def droppedOf (clientId : Str) (b : Broker) : Nat := (b.clients.lookup clientId).elim 0 ClientState.droppedMessages

theorem noteDroppedTo_droppedOf (other clientId : Str) (b : Broker) (known : clientId ∈ b.clients) :
    (b.noteDroppedTo other).droppedOf clientId = b.droppedOf clientId + if other = clientId then 1 else 0 := by
  unfold noteDroppedTo droppedOf
  dsimp only
  split
  next missing =>
    have different : other ≠ clientId := by
      rintro rfl
      exact AList.lookup_eq_none.mp missing known
    rw [if_neg different]
    rfl
  next client entry =>
    by_cases same : other = clientId
    · subst same
      rw [AList.lookup_insert,entry,if_pos rfl]
      rfl
    · rw [AList.lookup_insert_ne (Ne.symm same),if_neg same]
      rfl

/-- Every refusal of a round of sends is counted, for the broker and for the client. -/
theorem noteDropped_counts (served : List Str) (env : Envelope) (m : Moment) (b : Broker) :
    let b' := served.foldl (fun b clientId => if m.accepts clientId env then b else b.noteDroppedTo clientId) b
    b'.totalMessages = b.totalMessages ∧
      b'.totalDropped = b.totalDropped + served.countP (fun identity => !m.accepts identity env) ∧
      ∀ clientId ∈ b.clients, b'.droppedOf clientId = b.droppedOf clientId +
        served.countP (fun identity => identity == clientId && !m.accepts identity env) := by
  induction served generalizing b with
  | nil => exact ⟨rfl,rfl,fun _ _ => rfl⟩
  | cons first rest ih =>
    dsimp only [List.foldl_cons] at ih ⊢
    cases accepted : m.accepts first env with
    | true =>
      obtain ⟨messages,drops,each⟩ := ih b
      refine ⟨messages,by simpa [accepted] using drops,fun clientId known => ?_⟩
      simpa [accepted] using each clientId known
    | false =>
      obtain ⟨messages,drops,each⟩ := ih (b.noteDroppedTo first)
      have noted : (b.noteDroppedTo first).totalDropped = b.totalDropped + 1 := rfl
      simp only [List.countP_cons,accepted,Bool.not_false,Bool.and_true,Bool.false_eq_true,if_false,if_true]
      refine ⟨messages,by omega,fun clientId known => ?_⟩
      have still : clientId ∈ (b.noteDroppedTo first).clients := by
        have same := (noteDropped_all [first] env m b).2.2 clientId
        simp only [List.foldl_cons,List.foldl_nil,accepted,Bool.false_eq_true,if_false] at same
        exact same.mpr known
      have next := each clientId still
      rw [noteDroppedTo_droppedOf first clientId b known] at next
      simp only [beq_iff_eq]
      omega

/-- What an outcome adds to the counts of drops is what it reports as lost. -/
structure Books (b : Broker) (done : Outcome Broker Output) : Prop where
  totalDropped : done.state.totalDropped = b.totalDropped + tally Output.lost done.events
  each : ∀ clientId ∈ b.clients, clientId ∈ done.state.clients →
    done.state.droppedOf clientId = b.droppedOf clientId + tally (Output.lostTo clientId) done.events

theorem silent_lost {output : Output} (silent : Silent output) :
    output.lost = 0 ∧ ∀ clientId, output.lostTo clientId = 0 := by
  cases output with
  | send identity env accepted =>
    have reserved : Output.isControl (.send identity env accepted) = true := silent
    simp [Output.lost,Output.lostTo,reserved]
  | flood key env accepted => cases silent
  | _ => exact ⟨rfl,fun _ => rfl⟩

/-- Control traffic is not counted. -/
theorem Books.silent {b : Broker} {done : Outcome Broker Output} (silent : ∀ output ∈ done.events, Silent output)
    (total : done.state.totalDropped = b.totalDropped)
    (each : ∀ clientId ∈ done.state.clients, done.state.droppedOf clientId = b.droppedOf clientId) : Books b done := by
  constructor
  · rw [total,tally_zero fun output member => (silent_lost (silent output member)).1]
    rfl
  · intro clientId _ left
    rw [each clientId left,tally_zero fun output member => (silent_lost (silent output member)).2 clientId]
    rfl

theorem Books.cons {b b' : Broker} {events : List Output} {output : Output} (books : Books b ⟨b',events⟩)
    (found : output.lost = 0) (foundTo : ∀ clientId, output.lostTo clientId = 0) : Books b ⟨b',output :: events⟩ := by
  constructor
  · rw [tally_cons,found,Nat.zero_add]
    exact books.totalDropped
  · intro clientId known left
    rw [tally_cons,foundTo,Nat.zero_add]
    exact books.each clientId known left

theorem Books.andThen {b : Broker} {first : Outcome Broker Output} {next : Broker → Outcome Broker Output}
    (books : Books b first) (later : Books first.state (next first.state))
    (still : ∀ clientId ∈ b.clients, clientId ∈ (next first.state).state.clients → clientId ∈ first.state.clients) :
    Books b (first.andThen next) := by
  constructor
  · rw [Outcome.andThen_state,Outcome.andThen_events,tally_append,later.totalDropped,books.totalDropped,Nat.add_assoc]
  · intro clientId known left
    have between := still clientId known left
    rw [Outcome.andThen_state,Outcome.andThen_events,tally_append,later.each clientId between left,
      books.each clientId known between,Nat.add_assoc]

theorem touch_droppedOf (senderId : Str) (now : Nat) (clientId : Str) (b : Broker) :
    (b.touch senderId now).droppedOf clientId = b.droppedOf clientId := by
  unfold droppedOf touch
  by_cases same : clientId = senderId
  · subst same
    rw [AList.lookup_insert]
    cases b.clients.lookup clientId <;> rfl
  · rw [AList.lookup_insert_ne same]

theorem removeClient_droppedOf {other clientId : Str} {b : Broker} (left : clientId ∈ (b.removeClient other).clients) :
    clientId ∈ b.clients ∧ (b.removeClient other).droppedOf clientId = b.droppedOf clientId := by
  obtain ⟨different,known⟩ := AList.mem_erase.mp left
  refine ⟨known,?_⟩
  unfold droppedOf removeClient
  rw [AList.lookup_erase_ne different]

/-- What is left after several clients went keeps its counts. -/
theorem removeClients_droppedOf (gone : List Str) {clientId : Str} (b : Broker)
    (left : clientId ∈ (gone.foldl (fun b other => b.removeClient other) b).clients) :
    clientId ∈ b.clients ∧
      (gone.foldl (fun b other => b.removeClient other) b).droppedOf clientId = b.droppedOf clientId := by
  induction gone generalizing b with
  | nil => exact ⟨left,rfl⟩
  | cons other rest ih =>
    obtain ⟨before,same⟩ := ih (b.removeClient other) left
    obtain ⟨known,kept⟩ := removeClient_droppedOf before
    exact ⟨known,same.trans kept⟩

theorem removeClients_same (gone : List Str) (b : Broker) :
    SameTotals b (gone.foldl (fun b other => b.removeClient other) b) :=
  SameTotals.foldl (fun b other => (⟨rfl,rfl⟩ : SameTotals b (b.removeClient other))) gone b

theorem handleSetCluster_counts (newCluster : Str) (m : Moment) (b : Broker) :
    SameTotals b (b.handleSetCluster newCluster m).state ∧
      ∀ clientId ∈ (b.handleSetCluster newCluster m).state.clients,
        (b.handleSetCluster newCluster m).state.droppedOf clientId = b.droppedOf clientId := by
  rcases handleSetCluster_cases newCluster m b with same | ⟨discovery,keys,same⟩
  · rw [same]
    exact ⟨⟨rfl,rfl⟩,fun _ _ => rfl⟩
  · rw [same,Outcome.andThen_state]
    have unlinked := removeClients_same (b.clients.keys.filter linkPrefix.isPrefixOf) { b with clusterName := newCluster }
    have stopped := removePeers_same keys
      { (unlinkInboundPeers m { b with clusterName := newCluster }).state with discovery }
    have clients := (removePeers_sameClients keys
      { (unlinkInboundPeers m { b with clusterName := newCluster }).state with discovery }).clients
    refine ⟨⟨stopped.totalMessages.trans unlinked.totalMessages,stopped.totalDropped.trans unlinked.totalDropped⟩,
      fun clientId left => ?_⟩
    rw [clients] at left
    rw [droppedOf,clients]
    exact (removeClients_droppedOf _ { b with clusterName := newCluster } left).2

theorem handleClientMessage_counts (env : Envelope) (senderId : Str) (m : Moment) (b : Broker) :
    SameTotals b (b.handleClientMessage env senderId m).1.state ∧
      ∀ clientId ∈ (b.handleClientMessage env senderId m).1.state.clients,
        (b.handleClientMessage env senderId m).1.state.droppedOf clientId = b.droppedOf clientId := by
  have touched (clientId : Str) := touch_droppedOf senderId m.now clientId b
  unfold handleClientMessage
  dsimp only
  split
  · exact ⟨⟨rfl,rfl⟩,fun clientId left => (removeClient_droppedOf left).2⟩
  · split_ifs
    · exact ⟨⟨rfl,rfl⟩,fun clientId _ => touched clientId⟩
    · exact ⟨⟨rfl,rfl⟩,fun clientId _ => touched clientId⟩
    · refine ⟨?_,fun clientId _ => ?_⟩
      · unfold handleSubscribe
        dsimp only
        split_ifs <;> exact ⟨rfl,rfl⟩
      · rw [droppedOf,handleSubscribe_clients]
        exact touched clientId
    · exact ⟨⟨rfl,rfl⟩,fun clientId _ => touched clientId⟩
    · obtain ⟨same,each⟩ := handleSetCluster_counts env.payload m (b.touch senderId m.now)
      exact ⟨⟨same.totalMessages,same.totalDropped⟩,fun clientId left => (each clientId left).trans (touched clientId)⟩
    · exact ⟨⟨rfl,rfl⟩,fun clientId _ => touched clientId⟩

theorem ready_counts (env : Envelope) (senderId : Str) (isFromPeer : Bool) (m : Moment) (b : Broker) :
    (b.ready env senderId isFromPeer m).totalMessages = b.totalMessages + 1 ∧
      (b.ready env senderId isFromPeer m).totalDropped = b.totalDropped ∧
      ∀ clientId, (b.ready env senderId isFromPeer m).droppedOf clientId = b.droppedOf clientId := by
  unfold ready
  cases isFromPeer with
  | true => exact ⟨rfl,rfl,fun _ => rfl⟩
  | false => exact ⟨rfl,rfl,fun clientId => touch_droppedOf senderId m.now clientId _⟩

/-- A round of sends reports as many refusals as it finds, in all and to each client. -/
theorem sends_refused (served : List Str) (env : Envelope) (m : Moment) :
    tally Output.refused (served.map fun identity => m.sendTo identity env) =
        served.countP (fun identity => !m.accepts identity env) ∧
      ∀ clientId, tally (Output.refusedTo clientId) (served.map fun identity => m.sendTo identity env) =
        served.countP (fun identity => identity == clientId && !m.accepts identity env) := by
  refine ⟨tally_countP (fun identity => ?_) served,fun clientId => tally_countP (fun identity => ?_) served⟩
  · cases accepted : m.accepts identity env <;> simp [Moment.sendTo,Output.refused,accepted]
  · simp [Moment.sendTo,Output.refusedTo]

theorem sends_lost {env : Envelope} (published : Keys.isReservedKey env.header.handlerKey = false) (m : Moment)
    (served : List Str) (weight : Output → Nat) :
    tally (fun output => if output.isControl then 0 else weight output) (served.map fun identity => m.sendTo identity env) =
      tally weight (served.map fun identity => m.sendTo identity env) := by
  rw [tally_map,tally_map]
  simp [Moment.sendTo,Output.isControl,published]

/-- A refused delivery of a routed message is counted for the broker and for the client. -/
theorem deliverToSubscribers_books {env : Envelope} (published : Keys.isReservedKey env.header.handlerKey = false)
    (senderId : Str) (isFromPeer : Bool) (m : Moment) (b : Broker) :
    Books b (b.deliverToSubscribers env senderId isFromPeer m) := by
  obtain ⟨-,total,each⟩ := noteDropped_counts (b.recipients env.header.topic senderId isFromPeer) env m b
  obtain ⟨refused,refusedTo⟩ := sends_refused (b.recipients env.header.topic senderId isFromPeer) env m
  constructor
  · rw [← refused,← sends_lost published] at total
    exact total
  · intro clientId known _
    have counted := each clientId known
    rw [← refusedTo,← sends_lost published] at counted
    exact counted

theorem floodPeers_books (env : Envelope) (m : Moment) (b : Broker) : Books b (b.floodPeers env m) := by
  refine ⟨congrArg _ (tally_countP (fun link => ?_) _).symm,fun clientId _ _ => ?_⟩
  · cases room : m.room link.key <;> rfl
  · have none : tally (Output.lostTo clientId) (b.floodPeers env m).events = 0 := by
      refine tally_zero fun output member => ?_
      obtain ⟨link,-,rfl⟩ := List.mem_map.mp member
      rfl
    rw [none]
    rfl

theorem processMessage_books (env : Envelope) (senderId : Str) (isFromPeer : Bool) (m : Moment) (b : Broker) :
    (b.processMessage env senderId isFromPeer m).state.totalMessages = b.totalMessages + 1 ∧
      Books b (b.processMessage env senderId isFromPeer m) := by
  cases reserved : Keys.isReservedKey env.header.handlerKey with
  | true =>
    cases isFromPeer with
    | true =>
      rw [processMessage_peer_reserved env senderId m b reserved]
      refine ⟨rfl,.silent (fun output member => ?_) rfl fun _ _ => rfl⟩
      rw [List.mem_singleton.mp member]
      simpa [Silent] using reserved
    | false =>
      rw [processMessage_reserved env senderId m b reserved]
      obtain ⟨same,each⟩ := handleClientMessage_counts (b.stamp env m) senderId m
        { b with totalMessages := b.totalMessages + 1 }
      refine ⟨same.totalMessages,.silent (fun output member => ?_) same.totalDropped each⟩
      rcases List.mem_cons.mp member with rfl | handled
      · simpa [Silent] using reserved
      · exact handleClientMessage_silent _ senderId m _ output handled
  | false =>
    cases repeated : (b.seen.isDuplicate (b.stamp env m).header.messageUuid).2 with
    | true =>
      rw [processMessage_duplicate env senderId isFromPeer m b reserved repeated]
      exact ⟨rfl,rfl,fun _ _ _ => rfl⟩
    | false =>
      rw [processMessage_routed env senderId isFromPeer m b reserved repeated]
      obtain ⟨messages,drops,ready⟩ := ready_counts env senderId isFromPeer m b
      have published : Keys.isReservedKey (b.stamp env m).header.handlerKey = false := by rwa [stamp_key]
      let fresh := b.ready env senderId isFromPeer m
      let greeting := if isFromPeer then [] else b.greet env.header.handlerKey senderId m
      obtain ⟨sent,-,-⟩ := noteDropped_counts (fresh.recipients (b.stamp env m).header.topic senderId isFromPeer)
        (b.stamp env m) m fresh
      have entered : Books b ⟨fresh,greeting⟩ := by
        refine .silent (fun output member => ?_) drops fun clientId _ => ready clientId
        cases isFromPeer with
        | true => cases member
        | false => exact greet_silent _ _ _ _ output member
      have delivered := entered.andThen (deliverToSubscribers_books published senderId isFromPeer m fresh) fun clientId _ left =>
        ((noteDropped_all _ (b.stamp env m) m fresh).2.2 clientId).mp left
      have flooded := delivered.andThen (floodPeers_books (b.stamp env m) m _) fun _ _ left => left
      exact ⟨sent.trans messages,(flooded.cons rfl fun _ => rfl).cons rfl fun _ => rfl⟩

theorem broadcastStats_counts (pack : SystemStats → Str) (rates : Rates) (m : Moment) (b : Broker) :
    let done := b.broadcastStats pack rates m
    done.state.totalMessages = b.totalMessages ∧
      done.state.totalDropped = b.totalDropped + tally Output.refused done.events ∧
      ∀ clientId ∈ b.clients, done.state.droppedOf clientId =
        b.droppedOf clientId + tally (Output.refusedTo clientId) done.events := by
  obtain ⟨messages,total,each⟩ := noteDropped_counts b.statsRecipients (b.statsMessage pack rates) m b
  obtain ⟨refused,refusedTo⟩ := sends_refused b.statsRecipients (b.statsMessage pack rates) m
  refine ⟨messages,?_,fun clientId known => ?_⟩
  · rw [← refused] at total
    rw [broadcastStats,tally_cons]
    exact total.trans (congrArg _ (Nat.zero_add _).symm)
  · have counted := each clientId known
    rw [← refusedTo] at counted
    rw [broadcastStats,tally_cons]
    exact counted.trans (congrArg _ (Nat.zero_add _).symm)

end Broker

namespace BrokerLoop

namespace Event

/-- What the lines about malformed messages add up to. -/
def warnedOf : Event → Nat
  | .warned count => count
  | _ => 0

def reportedMessages : Event → Nat
  | .report messages _ => messages
  | _ => 0

def reportedBytes : Event → Nat
  | .report _ bytes => bytes
  | _ => 0

def lost : Event → Nat
  | .output sent => sent.lost
  | .broadcast sent => sent.refused
  | _ => 0

def lostTo (clientId : Str) : Event → Nat
  | .output sent => sent.lostTo clientId
  | .broadcast sent => sent.refusedTo clientId
  | _ => 0

end Event

/-- What a part of the loop does to the counters agrees with what it reports. -/
structure Ledger (s : BrokerLoop) (done : Outcome BrokerLoop Event) : Prop where
  totalMessages : done.state.broker.totalMessages = s.broker.totalMessages + tally Event.messages done.events
  messages : s.msgsInterval + tally Event.messages done.events =
    done.state.msgsInterval + tally Event.reportedMessages done.events
  bytes : s.bytesInterval + tally Event.bytes done.events =
    done.state.bytesInterval + tally Event.reportedBytes done.events
  malformed : s.malformedCount + tally Event.unreadable done.events =
    done.state.malformedCount + tally Event.warnedOf done.events
  totalDropped : done.state.broker.totalDropped = s.broker.totalDropped + tally Event.lost done.events
  each : ∀ clientId ∈ s.broker.clients, clientId ∈ done.state.broker.clients →
    done.state.broker.droppedOf clientId = s.broker.droppedOf clientId + tally (Event.lostTo clientId) done.events

theorem Ledger.andThen {s : BrokerLoop} {first : Outcome BrokerLoop Event}
    {next : BrokerLoop → Outcome BrokerLoop Event} (ledger : Ledger s first)
    (later : Ledger first.state (next first.state))
    (still : ∀ clientId ∈ (next first.state).state.broker.clients, clientId ∈ first.state.broker.clients) :
    Ledger s (first.andThen next) := by
  obtain ⟨total,messages,bytes,malformed,dropped,each⟩ := ledger
  obtain ⟨total',messages',bytes',malformed',dropped',each'⟩ := later
  constructor
  case each =>
    intro clientId known left
    have between := still clientId left
    have one := each clientId known between
    have two := each' clientId between left
    simp only [Outcome.andThen_state,Outcome.andThen_events,tally_append]
    omega
  all_goals
    simp only [Outcome.andThen_state,Outcome.andThen_events,tally_append]
    omega

theorem Ledger.aside {s s' : BrokerLoop} {done : Outcome BrokerLoop Event} (same : Aside s s') (ledger : Ledger s' done) :
    Ledger s done := by
  obtain ⟨total,messages,bytes,malformed,dropped,each⟩ := ledger
  rw [same.totalMessages] at total
  rw [same.msgsInterval] at messages
  rw [same.bytesInterval] at bytes
  rw [same.malformedCount] at malformed
  rw [same.totalDropped] at dropped
  refine ⟨total,messages,bytes,malformed,dropped,fun clientId known left => ?_⟩
  have held : s'.broker.droppedOf clientId = s.broker.droppedOf clientId := by
    rw [Broker.droppedOf,same.clients]
    rfl
  rw [each clientId (same.clients ▸ known) left,held]

theorem closing_ledger (s : BrokerLoop) {outputs : List Output} (closed : ∀ output ∈ outputs, ∃ link, output = .closed link) :
    Ledger s ⟨s,outputs.map .output⟩ := by
  have nothing {weight : Event → Nat} (hidden : ∀ link, weight (.output (.closed link)) = 0) :
      tally weight (outputs.map .output) = 0 := by
    rw [tally_map]
    refine tally_zero fun output member => ?_
    obtain ⟨link,rfl⟩ := closed output member
    exact hidden link
  constructor
  case each =>
    intro clientId _ _
    rw [nothing fun _ => rfl]
    rfl
  all_goals
    rw [nothing fun _ => rfl]
    first | rfl | rw [nothing fun _ => rfl]

theorem noteMalformed_ledger (now : Nat) (s : BrokerLoop) : Ledger s (noteMalformed now s) := by
  unfold noteMalformed
  dsimp only
  split
  · -- the line is due, and takes everything that was held back with it
    refine ⟨rfl,rfl,rfl,?_,rfl,fun _ _ _ => rfl⟩
    simp [Event.unreadable,Event.warnedOf]
  · exact ⟨rfl,rfl,rfl,rfl,rfl,fun _ _ _ => rfl⟩

/-- A message that is counted and processed, whatever else is noted on the way. -/
theorem processed_ledger {s : BrokerLoop} {first : Event} {noted : List Event} {bytes : Nat} {outcome : Outcome Broker Output}
    (processed : (∃ identity env, first = .client identity env bytes) ∨ ∃ env, first = .peer env bytes)
    (entered : ∀ event ∈ noted, ∃ clientId, event = .joined clientId)
    (total : outcome.state.totalMessages = s.broker.totalMessages + 1) (books : s.broker.Books outcome) :
    Ledger s ((⟨s.count bytes,first :: noted⟩ : Outcome BrokerLoop Event).andThen fun s => s.ofBroker outcome) := by
  have nothing {weight : Event → Nat} (hidden : ∀ clientId, weight (.joined clientId) = 0) : tally weight noted = 0 := by
    refine tally_zero fun event member => ?_
    obtain ⟨clientId,rfl⟩ := entered event member
    exact hidden clientId
  have shown : first.messages = 1 ∧ first.bytes = bytes ∧ first.unreadable = 0 ∧ first.warnedOf = 0 ∧
      first.reportedMessages = 0 ∧ first.reportedBytes = 0 ∧ first.lost = 0 ∧ ∀ clientId, first.lostTo clientId = 0 := by
    rcases processed with ⟨identity,env,rfl⟩ | ⟨env,rfl⟩ <;> exact ⟨rfl,rfl,rfl,rfl,rfl,rfl,rfl,fun _ => rfl⟩
  obtain ⟨messages,size,unreadable,warned,reported,reportedBytes,lost,lostTo⟩ := shown
  have events (weight : Event → Nat) (hidden : ∀ clientId, weight (.joined clientId) = 0) :
      tally weight ((⟨s.count bytes,first :: noted⟩ : Outcome BrokerLoop Event).andThen fun s => s.ofBroker outcome).events =
        weight first + tally (fun output => weight (.output output)) outcome.events := by
    rw [Outcome.andThen_events,tally_append,tally_cons,nothing hidden,ofBroker,tally_map,Nat.add_zero]
  have unseen (weight : Event → Nat) (hidden : ∀ output, weight (.output output) = 0) :
      tally (fun output => weight (.output output)) outcome.events = 0 := tally_zero fun output _ => hidden output
  constructor
  case totalMessages =>
    rw [events _ fun _ => rfl,unseen Event.messages fun _ => rfl,messages]
    exact total
  case messages =>
    rw [events _ fun _ => rfl,events _ fun _ => rfl,unseen Event.messages fun _ => rfl,
      unseen Event.reportedMessages fun _ => rfl,messages,reported]
    rfl
  case bytes =>
    rw [events _ fun _ => rfl,events _ fun _ => rfl,unseen Event.bytes fun _ => rfl,
      unseen Event.reportedBytes fun _ => rfl,size,reportedBytes]
    rfl
  case malformed =>
    rw [events _ fun _ => rfl,events _ fun _ => rfl,unseen Event.unreadable fun _ => rfl,
      unseen Event.warnedOf fun _ => rfl,unreadable,warned]
    rfl
  case totalDropped =>
    rw [events _ fun _ => rfl,lost,Nat.zero_add]
    exact books.totalDropped
  case each =>
    intro clientId known left
    rw [events _ fun _ => rfl,lostTo,Nat.zero_add]
    exact books.each clientId known left

theorem sweep_counts (timeout now : Nat) (order : List Str) (removed : Nat) (b : Broker) :
    SameTotals b (sweep timeout now order removed b).state ∧
      ∀ clientId ∈ (sweep timeout now order removed b).state.clients, clientId ∈ b.clients ∧
        (sweep timeout now order removed b).state.droppedOf clientId = b.droppedOf clientId := by
  induction order generalizing removed b with
  | nil => exact ⟨⟨rfl,rfl⟩,fun _ left => ⟨left,rfl⟩⟩
  | cons first rest ih =>
    unfold sweep
    split
    · split
      · obtain ⟨same,each⟩ := ih (removed + 1) (b.removeClient first)
        refine ⟨⟨same.totalMessages,same.totalDropped⟩,fun clientId left => ?_⟩
        obtain ⟨between,counted⟩ := each clientId left
        obtain ⟨known,kept⟩ := Broker.removeClient_droppedOf between
        exact ⟨known,counted.trans kept⟩
      · exact ih removed b
    · exact ⟨⟨rfl,rfl⟩,fun _ left => ⟨left,rfl⟩⟩

theorem cleanup_ledger (config : Config) (now : Nat) (order : List Str) (s : BrokerLoop) :
    Ledger s (cleanup config now order s) := by
  unfold cleanup
  split
  · obtain ⟨same,each⟩ := sweep_counts (milliseconds config.clientTimeout) now order 0 s.broker
    have nothing {weight : Event → Nat} (unmarked : weight (.sweep now) = 0) (hidden : ∀ clientId, weight (.swept clientId) = 0) :
        tally weight (.sweep now :: (sweep (milliseconds config.clientTimeout) now order 0 s.broker).events.map .swept) = 0 := by
      rw [tally_cons,unmarked,tally_map_zero weight Event.swept hidden]
    constructor
    case totalMessages =>
      rw [nothing rfl fun _ => rfl]
      exact same.totalMessages
    case totalDropped =>
      rw [nothing rfl fun _ => rfl]
      exact same.totalDropped
    case each =>
      intro clientId _ left
      rw [nothing rfl fun _ => rfl]
      exact (each clientId left).2
    all_goals rw [nothing rfl fun _ => rfl,nothing rfl fun _ => rfl]
  · exact ⟨rfl,rfl,rfl,rfl,rfl,fun _ _ _ => rfl⟩

theorem stats_ledger (config : Config) (now : Nat) (m : Moment) (s : BrokerLoop) : Ledger s (stats config now m s) := by
  unfold stats
  split
  · obtain ⟨messages,total,each⟩ := Broker.broadcastStats_counts config.pack
      (config.rates s.msgsInterval s.bytesInterval (m.now - s.lastStatsTime) (m.now - config.startTime)) m s.broker
    have sent (weight : Event → Nat) (hidden : ∀ output, weight (.broadcast output) = 0) (outputs : List Output) :=
      tally_map_zero weight Event.broadcast hidden outputs
    constructor
    case totalMessages =>
      rw [tally_cons,sent _ fun _ => rfl]
      exact messages
    case totalDropped =>
      rw [tally_cons,tally_map]
      exact total.trans (congrArg _ (Nat.zero_add _).symm)
    case each =>
      intro clientId known _
      rw [tally_cons,tally_map]
      exact (each clientId known).trans (congrArg _ (Nat.zero_add _).symm)
    all_goals
      rw [tally_cons,tally_cons,sent _ fun _ => rfl,sent _ fun _ => rfl]
      simp [Event.messages,Event.reportedMessages,Event.bytes,Event.reportedBytes,Event.unreadable,Event.warnedOf]
  · exact ⟨rfl,rfl,rfl,rfl,rfl,fun _ _ _ => rfl⟩

theorem stats_clients (config : Config) (now : Nat) (m : Moment) (s : BrokerLoop) (clientId : Str) :
    clientId ∈ (stats config now m s).state.broker.clients ↔ clientId ∈ s.broker.clients := by
  unfold stats
  split
  · exact (Broker.noteDropped_all s.broker.statsRecipients _ m s.broker).2.2 clientId
  · exact Iff.rfl

theorem Deed.ledger {config : Config} {s : BrokerLoop} {done : Outcome BrokerLoop Event} (deed : Deed config s done) :
    Ledger s done := by
  cases deed with
  | aside same closed => exact .aside same (closing_ledger _ closed)
  | malformed now same => exact .aside same (noteMalformed_ledger now _)
  | @client s' identity env bytes m same reads =>
    obtain ⟨total,books⟩ := s'.broker.processMessage_books env identity false m
    refine .aside same (processed_ledger (.inl ⟨identity,env,rfl⟩) (fun event member => ?_) total books)
    split at member
    · exact ⟨identity,List.mem_singleton.mp member⟩
    · cases member
  | @peer s' env bytes m same =>
    obtain ⟨total,books⟩ := s'.broker.processMessage_books env (str "PEER") true m
    exact .aside same (processed_ledger (.inr ⟨env,rfl⟩) (fun event member => absurd member List.not_mem_nil) total books)
  | timers order m same walks =>
    refine .aside same ((cleanup_ledger config s.clock order _).andThen (stats_ledger config s.clock m _) ?_)
    exact fun clientId left => (stats_clients config s.clock m _ clientId).mp left

theorem step_ledger (config : Config) (label : Label) (s : BrokerLoop) : Ledger s (step config label s) := by
  obtain ⟨total,messages,bytes,malformed,dropped,each⟩ := (step_deed config label s).ledger
  exact ⟨total,messages,bytes,malformed,dropped,each⟩

/-- The client has its session before the step and after it. -/
def Stays (config : Config) (clientId : Str) (s : BrokerLoop) (label : Label) : Prop :=
  clientId ∈ s.broker.clients ∧ clientId ∈ (step config label s).state.broker.clients

end BrokerLoop

end Wisp
