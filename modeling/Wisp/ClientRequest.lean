import Wisp.ConnectionManager
import Wisp.WorkerGate

/-! Requests and their reply subscriptions. `sendRequest` registers a callback for a fresh
reply topic, queues the request, waits, and gives the callback up; each part is a step,
interleaved with the other sections of the table's lock and with the worker. The worker's
loop runs the status handler where it reports, and waits for the lock there. -/
namespace Wisp

open Transition

/-- Where a call of `sendRequest` stands, once its callback is registered. -/
inductive Stage where
  | registered
  | waiting (request : Write)
  | refused
  deriving DecidableEq, Repr

structure Call where
  request : Envelope
  stage : Stage
  deriving DecidableEq, Repr

def Call.replyTopic (call : Call) : Str := call.request.header.replyTopic

structure Client where
  worker : Worker := .initial
  manager : ConnectionManager
  /-- What the processing thread has still to queue for a RESET, with the table's lock. -/
  resending : List Envelope := []
  /-- The calls in progress, each under the address of its promise. -/
  calls : AList fun _ : Nat => Call := ∅

namespace Client

inductive Label where
  | worker (label : Worker.Label)
  | register (key : Str) (owner : Nat) (scope : Origin)
  | unregister (key : Str) (owner : Nat)
  | ask (requestTopic payload uuid : Str) (owner : Nat)
  | write (owner : Nat)
  | leave (owner : Nat)
  | handle
  | resend
  deriving DecidableEq, Repr

def sendRawEnvelope (env : Envelope) (w : Worker) : Outcome Worker Worker.Event :=
  if Keys.isControlMessage env.header.handlerKey then w.writeControlMessage env else w.writeMessage env

def sendAll (envs : List Envelope) (w : Worker) : Worker := envs.foldl (fun w env => (sendRawEnvelope env w).state) w

/-- The uuid survives whole, whatever the request's topic. -/
def makeReplyTopic (requestTopic uuid : Str) : Str :=
  let suffix := str "." ++ uuid
  requestTopic.take (maxTopicLengthBytes - suffix.length) ++ suffix

def makeRequest (requestTopic payload uuid : Str) (c : ConnectionManager) : Envelope :=
  { header :=
      { handlerKey := requestTopic
        senderId := c.clientId
        topic := requestTopic
        replyTopic := makeReplyTopic requestTopic uuid }
    payload }

/-- One section of the table's lock. -/
def locked (next : ConnectionManager × List Envelope) (s : Client) : Client :=
  { s with manager := next.1, worker := sendAll next.2 s.worker }

/-- What the loop is about to report to the status handler. -/
def reports (label : Worker.Label) (w : Worker) : Option Bool :=
  match label, w.point with
  | .loop _ _, .online _ => some true
  | .loop _ _, .offline => some false
  | _, _ => none

def advance (label : Worker.Label) (s : Client) : Client :=
  { s with worker := (Worker.step label s.worker).state }

def act : Label → Client → Client
  | .worker label, s =>
    match reports label s.worker with
    | some connected =>
      if s.resending = [] then (s.locked (s.manager.statusHandler connected)).advance label else s
    | none => s.advance label
  | .register key owner scope, s =>
    if s.resending = [] then s.locked (s.manager.performRegistration key owner scope) else s
  -- the address of a promise is nobody else's while its call runs
  | .unregister key owner, s =>
    if s.resending = [] ∧ owner ∉ s.calls then s.locked (s.manager.performUnregistration key owner) else s
  | .ask requestTopic payload uuid owner, s =>
    if s.resending = [] ∧ owner ∉ s.calls then
      let request := makeRequest requestTopic payload uuid s.manager
      { s.locked (s.manager.performRegistration request.header.replyTopic owner .any) with
        calls := s.calls.insert owner ⟨request,.registered⟩ }
    else s
  | .write owner, s =>
    match s.calls.lookup owner with
    | some ⟨request,.registered⟩ =>
      let sent := sendRawEnvelope request s.worker
      let lane := if Keys.isControlMessage request.header.handlerKey then .control else .outbound
      let stage := if sent.events = [.wrote true] then .waiting ⟨lane,s.worker.written.length,request⟩ else .refused
      { s with worker := sent.state, calls := s.calls.insert owner ⟨request,stage⟩ }
    | _ => s
  -- the reply has come, the wait has run out, or the request was refused
  | .leave owner, s =>
    match s.calls.lookup owner with
    | some call =>
      if s.resending = [] ∧ call.stage ≠ .registered then
        { s.locked (s.manager.performUnregistration call.replyTopic owner) with calls := s.calls.erase owner }
      else s
    | none => s
  | .handle, s =>
    match s.worker.received with
    | [] => s
    | reply :: received =>
      if s.resending = [] then
        { s with
          worker := { s.worker with received }
          resending := if reply = .reset then s.manager.resubscribeAll else [] }
      else s
  | .resend, s =>
    match s.resending with
    | [] => s
    | env :: resending => { s with worker := (sendRawEnvelope env s.worker).state, resending }

def step (label : Label) (s : Client) : Outcome Client Empty := ⟨s.act label,[]⟩

def start (clientId : Str) : Client := { manager := { clientId } }

/-- Every control message that a section queues finds room, and the worker drops none. -/
def Undropped (s : Client) : Label → Prop
  | .worker label => s.worker.Undropped label ∧ ∀ connected ∈ reports label s.worker,
      s.worker.controlQueue.length + (s.manager.statusHandler connected).2.length ≤ controlBacklogLimit
  | .register .. | .unregister .. | .ask .. | .leave _ => s.worker.controlQueue.length < controlBacklogLimit
  | .write _ | .handle | .resend => True

instance (s : Client) : ∀ label, Decidable (s.Undropped label)
  | .worker label => inferInstanceAs (Decidable (s.worker.Undropped label ∧ ∀ connected ∈ reports label s.worker, _))
  | .register .. | .unregister .. | .ask .. | .leave _ => inferInstanceAs (Decidable (_ < controlBacklogLimit))
  | .write _ | .handle | .resend => inferInstanceAs (Decidable True)

def Subscribes (topic : Str) (write : Write) : Prop :=
  write.lane = .control ∧ write.envelope.header.handlerKey = Keys.subscribe ∧ write.envelope.header.topic = topic

instance (topic : Str) (write : Write) : Decidable (Subscribes topic write) := inferInstanceAs (Decidable (_ ∧ _))

/-- A SUBSCRIBE for the topic is queued or sent. -/
def Announced (topic : Str) (w : Worker) : Prop :=
  ∃ write, Subscribes topic write ∧ (write ∈ w.waiting .control ∨ .message write ∈ w.arrivals)

/-- Wherever the request arrives, a SUBSCRIBE for the topic arrives ahead of it. -/
def Ahead (topic : Str) (request : Write) (arrivals : List Frame) : Prop :=
  ∀ front rest, arrivals = front ++ .message request :: rest →
    ∃ write, Subscribes topic write ∧ .message write ∈ front

/-- What holds of a call in progress. -/
structure Awaits (c : ConnectionManager) (w : Worker) (owner : Nat) (call : Call) : Prop where
  registered : c.Registered call.replyTopic owner
  announced : Announced call.replyTopic w ∨ c.connected = false
  sent : ∀ request, call.stage = .waiting request → Keys.isControlMessage call.request.header.handlerKey = false →
    request.lane = .outbound ∧ (request ∈ w.taken → Announced call.replyTopic w) ∧
      Ahead call.replyTopic request w.arrivals

section

variable {w w' : Worker} {frames : List Frame} {topic : Str} {c : ConnectionManager} {owner : Nat} {call : Call}

theorem Announced.passes (announced : Announced topic w) (passes : w.Passes w' frames) : Announced topic w' := by
  obtain ⟨write,subscribes,queued | sent⟩ := announced
  · rcases passes.kept write queued with kept | sent
    · exact ⟨write,subscribes,.inl kept⟩
    · exact ⟨write,subscribes,.inr (passes.arrives ▸ List.mem_append_right _ sent)⟩
  · exact ⟨write,subscribes,.inr (passes.arrives ▸ List.mem_append_left _ sent)⟩

/-- With nothing waiting on the control lane, what is announced is sent. -/
theorem Announced.arrived (announced : Announced topic w) (clear : w.waiting .control = []) :
    ∃ write, Subscribes topic write ∧ .message write ∈ w.arrivals := by
  obtain ⟨write,subscribes,queued | sent⟩ := announced
  · rw [clear] at queued
    cases queued
  · exact ⟨write,subscribes,sent⟩

theorem Ahead.passes {request : Write} (ahead : Ahead topic request w.arrivals) (passes : w.Passes w' frames)
    (outbound : request.lane = .outbound) (announced : request ∈ w.taken → Announced topic w) :
    Ahead topic request w'.arrivals := by
  intro front rest split
  rw [passes.arrives] at split
  rcases List.append_eq_append_iff.mp split with ⟨part,rfl,tail⟩ | ⟨part,arrived,tail⟩
  · obtain ⟨held,clear⟩ := passes.gated request (tail ▸ List.mem_append_right _ List.mem_cons_self) outbound
    obtain ⟨write,subscribes,sent⟩ := (announced held).arrived clear
    exact ⟨write,subscribes,List.mem_append_left _ sent⟩
  · cases part with
    | nil =>
      rw [List.nil_append] at tail
      obtain ⟨held,clear⟩ := passes.gated request (tail ▸ List.mem_cons_self) outbound
      obtain ⟨write,subscribes,sent⟩ := (announced held).arrived clear
      exact ⟨write,subscribes,by rwa [arrived,List.append_nil] at sent⟩
    | cons first more =>
      obtain ⟨rfl,rfl⟩ := List.cons.inj tail
      exact ahead front more arrived

/-- The loop takes data only where its status is reported, so the subscription is queued. -/
theorem Awaits.passes (awaits : Awaits c w owner call) (passes : w.Passes w' frames)
    (reported : w.Reported c.connected) : Awaits c w' owner call := by
  refine ⟨awaits.registered,awaits.announced.imp_left (·.passes passes),fun request stage data => ?_⟩
  obtain ⟨outbound,announced,ahead⟩ := awaits.sent request stage data
  refine ⟨outbound,fun member => ?_,ahead.passes passes outbound announced⟩
  rcases passes.took request member with held | ⟨online,here⟩
  · exact (announced held).passes passes
  · have connected : c.connected = true := (reported.1 online).resolve_right fun ⟨reply,elsewhere⟩ => by
      rw [here] at elsewhere
      cases elsewhere
    exact (awaits.announced.resolve_right (by simp [connected])).passes passes

/-- Another table, under which the callback stays and the topic is announced. -/
theorem Awaits.manager {c' : ConnectionManager} (awaits : Awaits c w owner call)
    (registered : c'.Registered call.replyTopic owner)
    (announced : c'.connected = true → c.connected = false → Announced call.replyTopic w) :
    Awaits c' w owner call := by
  refine ⟨registered,?_,awaits.sent⟩
  by_cases online : c'.connected = true
  · refine .inl ?_
    rcases awaits.announced with already | offline
    · exact already
    · exact announced online offline
  · exact .inr (Bool.eq_false_iff.mpr online)

end

/-- What a section queues is queued as it says, where there is room. -/
theorem sendAll_queues {envs : List Envelope} {w : Worker}
    (control : ∀ env ∈ envs, Keys.isControlMessage env.header.handlerKey = true)
    (room : w.controlQueue.length + envs.length ≤ controlBacklogLimit) :
    ∃ new, sendAll envs w = { w with controlQueue := w.controlQueue ++ new, written := w.written ++ new } ∧
      ∀ env ∈ envs, ∃ write ∈ new, write.lane = .control ∧ write.envelope = env := by
  induction envs generalizing w with
  | nil => exact ⟨[],by simp [sendAll],nofun⟩
  | cons env rest ih =>
    have here := control env List.mem_cons_self
    rw [List.length_cons] at room
    have free : w.controlQueue.length < controlBacklogLimit := by omega
    have first : (sendRawEnvelope env w).state =
        { w with
          controlQueue := w.controlQueue ++ [⟨.control,w.written.length,env⟩]
          written := w.written ++ [⟨.control,w.written.length,env⟩] } := by
      rw [sendRawEnvelope,if_pos here,Worker.writeControlMessage,Worker.enqueue,if_pos free]
    obtain ⟨new,queued,listed⟩ := @ih (sendRawEnvelope env w).state
      (fun env member => control env (List.mem_cons_of_mem _ member)) (by rw [first,List.length_append,List.length_singleton]; omega)
    refine ⟨⟨.control,w.written.length,env⟩ :: new,?_,fun other member => ?_⟩
    · have unfolded : sendAll (env :: rest) w = sendAll rest (sendRawEnvelope env w).state := rfl
      rw [unfolded,queued,first]
      simp
    · rcases List.mem_cons.mp member with rfl | later
      · exact ⟨_,List.mem_cons_self,rfl,rfl⟩
      · obtain ⟨write,queued,same⟩ := listed other later
        exact ⟨write,List.mem_cons_of_mem _ queued,same⟩

/-- Queueing a message is a step of the worker. -/
theorem sendRawEnvelope_step (env : Envelope) (w : Worker) : ∃ label, (sendRawEnvelope env w) = Worker.step label w ∧
    w.Undropped label ∧ (∀ position, label ≠ .lose position) ∧ ∀ pipe ready, label ≠ .loop pipe ready := by
  unfold sendRawEnvelope
  split
  · exact ⟨.writeControlMessage env,rfl,trivial,nofun,nofun⟩
  · exact ⟨.writeMessage env,rfl,trivial,nofun,nofun⟩

theorem sendAll_inOrder (envs : List Envelope) {w : Worker} (ordered : w.InOrder) : (sendAll envs w).InOrder := by
  induction envs generalizing w with
  | nil => exact ordered
  | cons env rest ih =>
    obtain ⟨label,same,_⟩ := sendRawEnvelope_step env w
    have queued : (sendRawEnvelope env w).state.InOrder := by
      rw [same]
      exact ordered.step label
    exact ih queued

theorem sendAll_frame (envs : List Envelope) (w : Worker) :
    (sendAll envs w).point = w.point ∧ (sendAll envs w).isOnline = w.isOnline := by
  induction envs generalizing w with
  | nil => exact ⟨rfl,rfl⟩
  | cons env rest ih =>
    have first : (sendRawEnvelope env w).state.point = w.point ∧ (sendRawEnvelope env w).state.isOnline = w.isOnline := by
      simp only [sendRawEnvelope,Worker.writeControlMessage,Worker.writeMessage,Worker.enqueue]
      split_ifs <;> exact ⟨rfl,rfl⟩
    have later := ih (sendRawEnvelope env w).state
    exact ⟨later.1.trans first.1,later.2.trans first.2⟩

structure Gated (s : Client) : Prop where
  ordered : s.worker.InOrder
  wired : ∀ frame ∈ s.worker.arrivals, frame ∈ s.worker.wire
  reported : s.worker.Reported s.manager.connected
  awaits : ∀ owner call, s.calls.lookup owner = some call → Awaits s.manager s.worker owner call

theorem start_gated (clientId : Str) : Gated (start clientId) :=
  ⟨Worker.initial_inOrder,fun _ member => member,⟨nofun,fun _ => rfl⟩,nofun⟩

section

variable {s : Client} (gated : Gated s)

include gated

theorem Gated.passes {w' : Worker} {frames : List Frame} (ordered : w'.InOrder) (passes : s.worker.Passes w' frames)
    (reported : w'.Reported s.manager.connected) : Gated { s with worker := w' } := by
  refine ⟨ordered,fun frame member => passes.wired frame ?_,reported,fun owner call here => ?_⟩
  · rw [passes.arrives] at member
    exact List.mem_append.mpr ((List.mem_append.mp member).imp_left (gated.wired frame))
  · exact (gated.awaits owner call here).passes passes gated.reported

/-- A section that keeps every call's callback, and announces the table if it goes online. -/
theorem Gated.locked {next : ConnectionManager × List Envelope}
    (control : ∀ env ∈ next.2, Keys.isControlMessage env.header.handlerKey = true)
    (room : s.worker.controlQueue.length + next.2.length ≤ controlBacklogLimit)
    (kept : ∀ owner call, s.calls.lookup owner = some call → next.1.Registered call.replyTopic owner)
    (told : next.1.connected = true → s.manager.connected = false → ∀ topic ∈ next.1.handlers.keys,
      next.1.createSubscribeEnvelope topic ∈ next.2)
    (reported : s.worker.Reported next.1.connected) : Gated (s.locked next) ∧
      ∀ topic, next.1.createSubscribeEnvelope topic ∈ next.2 → Announced topic (s.locked next).worker := by
  obtain ⟨new,queued,listed⟩ := sendAll_queues control room
  have passes : s.worker.Passes (sendAll next.2 s.worker) [] := by
    rw [queued]
    refine .rests rfl rfl (fun write waits => ?_) fun _ member => member
    rw [Worker.waiting,← List.append_assoc]
    exact List.mem_append_left _ waits
  have announced (topic : Str) (told : next.1.createSubscribeEnvelope topic ∈ next.2) :
      Announced topic (sendAll next.2 s.worker) := by
    obtain ⟨write,member,lane,envelope⟩ := listed _ told
    refine ⟨write,⟨lane,by rw [envelope]; rfl,by rw [envelope]; rfl⟩,.inl ?_⟩
    rw [queued]
    exact List.mem_append_right _ (List.mem_append_right _ member)
  have same : (sendAll next.2 s.worker).Reported next.1.connected := by
    rw [queued]
    exact reported.same rfl rfl
  have through : Gated { s with worker := sendAll next.2 s.worker } := by
    refine gated.passes (sendAll_inOrder _ gated.ordered) passes ?_
    rw [queued]
    exact gated.reported.same rfl rfl
  refine ⟨⟨through.ordered,through.wired,same,fun owner call here => ?_⟩,announced⟩
  have registered := kept owner call here
  exact (through.awaits owner call here).manager registered fun online offline =>
    announced _ (told online offline _ registered.listed)

theorem Gated.sends (env : Envelope) : Gated { s with worker := (sendRawEnvelope env s.worker).state } := by
  obtain ⟨label,same,undropped,lossless,outside⟩ := sendRawEnvelope_step env s.worker
  obtain ⟨frames,passes⟩ := gated.ordered.passes undropped lossless
  rw [same]
  exact gated.passes (gated.ordered.step label) passes (gated.reported.steps outside)

/-- The connection loses frames that no control message is. -/
theorem Gated.loses {position : Nat} (undropped : s.worker.Undropped (.lose position)) :
    Gated (s.advance (.lose position)) := by
  have thinned := Worker.lose_thinned undropped
  have announced {topic : Str} (announced : Announced topic s.worker) :
      Announced topic (Worker.step (.lose position) s.worker).state := by
    obtain ⟨write,subscribes,queued | sent⟩ := announced
    · exact ⟨write,subscribes,.inl queued⟩
    · exact ⟨write,subscribes,.inr (thinned.kept write subscribes.1 sent)⟩
  refine ⟨gated.ordered.step _,fun frame member => gated.wired frame (thinned.subset frame member),
    gated.reported.steps nofun,fun owner call here => ?_⟩
  have awaits := gated.awaits owner call here
  refine ⟨awaits.registered,awaits.announced.imp_left announced,fun request stage data => ?_⟩
  obtain ⟨outbound,held,ahead⟩ := awaits.sent request stage data
  refine ⟨outbound,fun member => announced (held member),fun front rest split => ?_⟩
  obtain ⟨before,after,earlier,kept⟩ := thinned.split front _ rest split
  obtain ⟨write,subscribes,sent⟩ := ahead before after earlier
  exact ⟨write,subscribes,kept write subscribes.1 sent⟩

/-- A step of the worker, where it reports nothing. -/
theorem Gated.advance {label : Worker.Label} (undropped : s.worker.Undropped label)
    (reported : (Worker.step label s.worker).state.Reported s.manager.connected) : Gated (s.advance label) := by
  by_cases lossy : ∃ position, label = .lose position
  · obtain ⟨position,rfl⟩ := lossy
    exact gated.loses undropped
  · obtain ⟨frames,passes⟩ := gated.ordered.passes undropped fun position same => lossy ⟨position,same⟩
    exact gated.passes (gated.ordered.step label) passes reported

theorem Gated.silent {label : Worker.Label} (undropped : s.worker.Undropped label)
    (silent : reports label s.worker = none) : Gated (s.advance label) := by
  refine gated.advance undropped ?_
  by_cases looping : ∃ pipe ready, label = .loop pipe ready
  · obtain ⟨pipe,ready,rfl⟩ := looping
    refine gated.reported.loops pipe ready ⟨fun reply here => ?_,fun here => ?_⟩
    · simp [reports,here] at silent
    · simp [reports,here] at silent
  · exact gated.reported.steps fun pipe ready same => looping ⟨pipe,ready,same⟩

omit gated in
theorem reports_some {label : Worker.Label} {w : Worker} {connected : Bool} (report : reports label w = some connected) :
    ∃ pipe ready, label = .loop pipe ready ∧
      (connected = true ∧ (∃ reply, w.point = .online reply) ∨ connected = false ∧ w.point = .offline) := by
  unfold reports at report
  split at report
  next pipe ready reply here => exact ⟨pipe,ready,rfl,.inl ⟨(Option.some.inj report).symm,reply,here⟩⟩
  next pipe ready here => exact ⟨pipe,ready,rfl,.inr ⟨(Option.some.inj report).symm,here⟩⟩
  · cases report

/-- The status handler runs on the worker's thread, before the loop goes on. -/
theorem Gated.reports {label : Worker.Label} {connected : Bool} (report : reports label s.worker = some connected)
    (room : s.worker.controlQueue.length + (s.manager.statusHandler connected).2.length ≤ controlBacklogLimit) :
    Gated ((s.locked (s.manager.statusHandler connected)).advance label) := by
  obtain ⟨pipe,ready,rfl,here⟩ := reports_some report
  have reported : s.worker.Reported connected := by
    rcases here with ⟨rfl,reply,here⟩ | ⟨rfl,here⟩
    · exact ⟨fun _ => .inl rfl,fun offline => by rw [here] at offline; cases offline⟩
    · refine ⟨fun online => ?_,gated.reported.2⟩
      rw [gated.reported.2 here] at online
      cases online
  have through := (gated.locked (ConnectionManager.statusHandler_control connected) room
    (fun owner call member => (gated.awaits owner call member).registered)
    (fun online _ topic member => by
      obtain rfl : connected = true := online
      exact List.mem_cons_of_mem _ (List.mem_map_of_mem member)) reported).1
  obtain ⟨point,isOnline⟩ := sendAll_frame (s.manager.statusHandler connected).2 s.worker
  refine through.advance ?_ ?_
  · intro draining
    rw [Client.locked,point] at draining
    rcases here with ⟨_,reply,here⟩ | ⟨_,here⟩ <;> rw [here] at draining <;> cases draining
  · rcases here with ⟨rfl,reply,here⟩ | ⟨rfl,here⟩
    · exact .up (point.trans here) pipe ready
    · exact through.reported.down (point.trans here) pipe ready

theorem Gated.fewer (owner : Nat) : Gated { s with calls := s.calls.erase owner } := by
  refine ⟨gated.ordered,gated.wired,gated.reported,fun other call here => gated.awaits other call ?_⟩
  have different : other ≠ owner := by
    rintro rfl
    simp at here
  rwa [AList.lookup_erase_ne different] at here

theorem Gated.withCall {owner : Nat} {call : Call} (awaits : Awaits s.manager s.worker owner call) :
    Gated { s with calls := s.calls.insert owner call } := by
  refine ⟨gated.ordered,gated.wired,gated.reported,fun other found here => ?_⟩
  by_cases same : other = owner
  · rw [same,AList.lookup_insert] at here
    rw [same,← Option.some.inj here]
    exact awaits
  · rw [AList.lookup_insert_ne same] at here
    exact gated.awaits other found here

/-- A section that leaves the status as it is, and every call's callback. -/
theorem Gated.updates {next : ConnectionManager × List Envelope} (connected : next.1.connected = s.manager.connected)
    (single : next.2.length ≤ 1) (control : ∀ env ∈ next.2, Keys.isControlMessage env.header.handlerKey = true)
    (room : s.worker.controlQueue.length < controlBacklogLimit)
    (kept : ∀ owner call, s.calls.lookup owner = some call → next.1.Registered call.replyTopic owner) :
    Gated (s.locked next) ∧
      ∀ topic, next.1.createSubscribeEnvelope topic ∈ next.2 → Announced topic (s.locked next).worker := by
  refine gated.locked control (by omega) kept (fun online offline => ?_) (connected ▸ gated.reported)
  rw [connected,offline] at online
  cases online

theorem Gated.registers (key : Str) (owner : Nat) (scope : Origin)
    (room : s.worker.controlQueue.length < controlBacklogLimit) :
    Gated (s.locked (s.manager.performRegistration key owner scope)) ∧
      ∀ call : Call, call.replyTopic = key → call.stage = .registered →
        Awaits (s.manager.performRegistration key owner scope).1
          (s.locked (s.manager.performRegistration key owner scope)).worker owner call := by
  obtain ⟨single,control⟩ := @ConnectionManager.performRegistration_control s.manager key owner scope
  obtain ⟨through,announced⟩ := @Gated.updates s gated (s.manager.performRegistration key owner scope) rfl single control
    room fun other call here => (gated.awaits other call here).registered.registers key owner scope
  refine ⟨through,fun call topic stage => ?_⟩
  refine ⟨topic ▸ ConnectionManager.performRegistration_registered key owner scope,?_,fun request waits => ?_⟩
  · by_cases online : s.manager.connected = true
    · refine .inl (announced _ ?_)
      rw [topic,ConnectionManager.performRegistration,if_pos online]
      exact List.mem_singleton_self _
    · exact .inr (Bool.eq_false_iff.mpr online)
  · rw [stage] at waits
    cases waits

theorem Gated.unregisters {key : Str} {owner : Nat} (room : s.worker.controlQueue.length < controlBacklogLimit)
    (others : owner ∉ s.calls) : Gated (s.locked (s.manager.performUnregistration key owner)) := by
  obtain ⟨connected,single,control⟩ := @ConnectionManager.performUnregistration_control s.manager key owner
  refine (gated.updates connected single control room fun other call here => ?_).1
  refine (gated.awaits other call here).registered.unregisters key ?_
  rintro rfl
  exact others (AList.lookup_isSome.mp (by simp [here]))

/-- A request that has just been queued is nowhere else yet. -/
theorem Gated.fresh {env : Envelope} :
    (⟨.outbound,s.worker.written.length,env⟩ : Write) ∉ s.worker.taken ∧
      .message ⟨.outbound,s.worker.written.length,env⟩ ∉ s.worker.arrivals := by
  have listed {write : Write} (member : write ∈ carried .outbound s.worker.wire ++ s.worker.waiting .outbound) :
      write.serial < s.worker.written.length :=
    gated.ordered.counted write (List.mem_of_mem_filter ((gated.ordered.lined .outbound).subset member))
  refine ⟨fun member => ?_,fun member => ?_⟩
  · have waits := List.mem_append_left s.worker.outboundQueue member
    exact Nat.lt_irrefl _ (listed (List.mem_append_right _ waits))
  · have wired := mem_carried.mpr ⟨gated.wired _ member,rfl⟩
    exact Nat.lt_irrefl _ (listed (List.mem_append_left _ wired))

theorem Gated.writes {owner : Nat} {request : Envelope} {stage : Stage}
    (here : s.calls.lookup owner = some ⟨request,.registered⟩)
    (written : ∀ write, stage = .waiting write → write = ⟨if Keys.isControlMessage request.header.handlerKey then
      .control else .outbound,s.worker.written.length,request⟩) :
    Gated { s with worker := (sendRawEnvelope request s.worker).state, calls := s.calls.insert owner ⟨request,stage⟩ } := by
  have through := gated.sends request
  have awaits := through.awaits owner _ here
  refine through.withCall ⟨awaits.registered,awaits.announced,fun write waits data => ?_⟩
  have same : (sendRawEnvelope request s.worker).state.taken = s.worker.taken ∧
      (sendRawEnvelope request s.worker).state.arrivals = s.worker.arrivals := by
    simp only [sendRawEnvelope,Worker.writeControlMessage,Worker.writeMessage,Worker.enqueue]
    split_ifs <;> exact ⟨rfl,rfl⟩
  have data : Keys.isControlMessage request.header.handlerKey = false := data
  have fresh := @Gated.fresh s gated request
  rw [written write waits,data,if_neg Bool.false_ne_true]
  refine ⟨rfl,fun member => absurd (same.1 ▸ member) fresh.1,fun front rest split => absurd ?_ fresh.2⟩
  rw [← same.2,split]
  exact List.mem_append_right _ List.mem_cons_self

theorem Gated.step {label : Label} (undropped : s.Undropped label) : Gated (step label s).state := by
  cases label with
  | worker label =>
    simp only [Client.step,act]
    split
    next connected report =>
      split
      · exact gated.reports report (undropped.2 connected report)
      · exact gated
    next silent => exact gated.silent undropped.1 silent
  | register key owner scope =>
    simp only [Client.step,act]
    split
    · exact (gated.registers key owner scope undropped).1
    · exact gated
  | unregister key owner =>
    simp only [Client.step,act]
    split
    next free => exact gated.unregisters undropped free.2
    · exact gated
  | ask requestTopic payload uuid owner =>
    simp only [Client.step,act]
    split
    · obtain ⟨through,awaits⟩ := gated.registers (makeRequest requestTopic payload uuid s.manager).header.replyTopic
        owner .any undropped
      exact through.withCall (awaits _ rfl rfl)
    · exact gated
  | write owner =>
    simp only [Client.step,act]
    split
    next request here =>
      refine gated.writes here fun write waits => ?_
      split at waits
      · exact (Stage.waiting.inj waits).symm
      · cases waits
    · exact gated
  | leave owner =>
    simp only [Client.step,act]
    split
    next call here =>
      split
      · exact (gated.fewer owner).unregisters undropped (by simp [AList.mem_erase])
      · exact gated
    · exact gated
  | handle =>
    simp only [Client.step,act]
    split
    · exact gated
    next reply received arrived =>
      split
      · have ordered : Worker.InOrder { s.worker with received } :=
          gated.ordered.shift (.rests rfl rfl fun lane => by cases lane <;> exact List.Sublist.refl _)
        have passes : s.worker.Passes { s.worker with received } [] :=
          .rests rfl rfl (fun _ waits => waits) fun _ member => member
        have through := gated.passes ordered passes (gated.reported.same rfl rfl)
        exact ⟨through.ordered,through.wired,through.reported,through.awaits⟩
      · exact gated
  | resend =>
    simp only [Client.step,act]
    split
    · exact gated
    next env rest pending =>
      have through := gated.sends env
      exact ⟨through.ordered,through.wired,through.reported,through.awaits⟩

end

/-- In every run that drops no control message, a broker that has processed the request of
a call still in progress had processed a SUBSCRIBE for its reply topic by then, unless the
request was itself queued as a control message. -/
theorem reply_subscribed_first (clientId : Str) (schedule : List Label)
    (undropped : Always step Undropped schedule (start clientId)) :
    let s := (run step schedule (start clientId)).state
    ∀ owner call request front rest, s.calls.lookup owner = some call → call.stage = .waiting request →
      Keys.isControlMessage call.request.header.handlerKey = false →
      s.worker.processed = front ++ .message request :: rest →
      ∃ subscription, Subscribes call.replyTopic subscription ∧ .message subscription ∈ front := by
  intro s owner call request front rest here waits data processed
  have gated : Gated s := run_invariant step Gated (fun s label undropped gated => gated.step undropped) schedule
    (start clientId) undropped (start_gated clientId)
  obtain ⟨_,_,ahead⟩ := (gated.awaits owner call here).sent request waits data
  exact ahead front (rest ++ s.worker.flight) (by simp [Worker.arrivals,processed])

/-- The request that a client called c writes first, under this topic. -/
def firstRequest (requestTopic : Str) : Envelope := makeRequest requestTopic [] (str "u") { clientId := str "c" }

def untilSent : List Label :=
  Worker.comeOnline.map .worker ++ List.replicate 6 (.worker (.loop [] false)) ++ List.replicate 4 (.worker .process)

/-- The client comes online while a call is in progress: the status handler queues the
subscription, and the request leaves behind it. -/
def askedOffline : List Label := .ask (str "q") [] (str "u") 1 :: .write 1 :: untilSent

theorem reply_subscribed_first_askedOffline :
    let s := (run step askedOffline (start (str "c"))).state
    s.calls.lookup 1 = some ⟨firstRequest (str "q"),.waiting ⟨.outbound,0,firstRequest (str "q")⟩⟩ ∧
      ∃ subscription, Subscribes (Call.replyTopic ⟨firstRequest (str "q"),.waiting ⟨.outbound,0,firstRequest (str "q")⟩⟩)
        subscription ∧ .message subscription ∈ s.worker.processed.take 4 :=
  ⟨by decide +kernel,reply_subscribed_first (str "c") askedOffline (by decide +kernel) 1 _ ⟨.outbound,0,firstRequest (str "q")⟩
    _ [] (by decide +kernel) rfl (by decide) (by decide +kernel)⟩

/-- The call gives up before the client comes online. -/
def givenUp : List Label :=
  .ask (str "q") [] (str "u") 1 :: .write 1 :: untilSent.take 8 ++ .leave 1 :: untilSent.drop 8

/-- A request under a control key leaves with the control messages, online or not. -/
def askedControl : List Label :=
  [.ask Keys.setCluster [] (str "u") 1,.write 1] ++ List.replicate 4 (.worker (.loop [] false)) ++
    List.replicate 2 (.worker .process)

def reached (schedule : List Label) : Client := (run step schedule (start (str "c"))).state

/-- The request of a call that has given up is processed though its reply topic never was
subscribed, and so is that of a call in progress whose topic is a control key. -/
theorem request_overtakes_subscription :
    ((reached (givenUp.take 2)).calls.lookup 1 =
        some ⟨firstRequest (str "q"),.waiting ⟨.outbound,0,firstRequest (str "q")⟩⟩ ∧
      Always step Undropped givenUp (start (str "c")) ∧
      .message ⟨.outbound,0,firstRequest (str "q")⟩ ∈ (reached givenUp).worker.processed ∧
      ∀ write ∈ carried .control (reached givenUp).worker.processed,
        ¬Subscribes (firstRequest (str "q")).header.replyTopic write) ∧
    (reached askedControl).calls.lookup 1 =
        some ⟨firstRequest Keys.setCluster,.waiting ⟨.control,0,firstRequest Keys.setCluster⟩⟩ ∧
      Always step Undropped askedControl (start (str "c")) ∧
      .message ⟨.control,0,firstRequest Keys.setCluster⟩ ∈ (reached askedControl).worker.processed ∧
      ∀ write ∈ carried .control (reached askedControl).worker.processed,
        ¬Subscribes (firstRequest Keys.setCluster).header.replyTopic write := by
  refine ⟨⟨by decide +kernel,by decide +kernel,by decide +kernel,by decide +kernel⟩,by decide +kernel,by decide +kernel,
    by decide +kernel,by decide +kernel⟩

end Client

end Wisp
