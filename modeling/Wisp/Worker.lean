import Wisp.MessageKeys
import Wisp.Transition

/-! The connection worker. Producers push onto its three queues under the queues' own
locks, one thread drains them onto the socket, and a caller of `sync` waits for the
acknowledgement of a heartbeat that the loop sends once it has found the queues empty.
A step is one locked section or one look at a queue, with what its thread does alone
up to the next one. The pipe may refuse any send and the connection may lose any frame. -/
namespace Wisp

open Transition

def controlBacklogLimit : Nat := maxSubscriptionsPerClient + 1024
def dataBacklogLimit : Nat := 5000

/-- The default bound of a queue. -/
def queueLimit : Nat := 5000

inductive Lane where
  | control
  | outbound
  | encoded
  deriving DecidableEq, Repr

/-- A message whose write call returned true, numbered in the order of these calls. -/
structure Write where
  lane : Lane
  serial : Nat
  envelope : Envelope
  deriving DecidableEq, Repr

/-- A heartbeat is told apart by the sender's count; the number is not sent. -/
inductive Frame where
  | connect
  | heartbeat (number : Nat)
  | message (write : Write)
  deriving DecidableEq, Repr

def Frame.key : Frame → Str
  | .connect => Keys.connect
  | .heartbeat _ => Keys.heartbeat
  | .message write => write.envelope.header.handlerKey

theorem mem_messages {write : Write} {batch : List Write} : .message write ∈ batch.map Frame.message ↔ write ∈ batch := by
  simp

/-- What the broker sends: the answer to a heartbeat, a RESET, or a routed message. -/
inductive Reply where
  | ack
  | reset
  | routed
  deriving DecidableEq, Repr

namespace Worker

/-- Where the loop stands. -/
inductive Point where
  | top
  | receive
  | online (reply : Reply)
  | accept (reply : Reply)
  | drainControl
  | drainOutbound
  | place (batch : List Write)
  | release
  | gate
  | drainEncoded
  | checkControl
  | checkOutbound
  | checkEncoded
  | look
  | beat
  | publish
  | keepAlive
  | expire
  | offline
  | ended
  deriving DecidableEq, Repr

/-- Where the call of `sync` stands, with the number of messages written before it began. -/
inductive Caller where
  | idle
  | called (promised : Nat)
  | waiting (promised : Nat)
  | confirming (promised target : Nat)
  deriving DecidableEq, Repr

inductive Event where
  | wrote (accepted : Bool)
  | returned (promised target : Nat) (result : Bool)
  deriving DecidableEq, Repr

end Worker

structure Worker where
  controlQueue : List Write := []
  outboundQueue : List Write := []
  encodedQueue : List Write := []
  hasEncoded : Bool := false
  running : Bool := true
  droppedSends : Nat := 0
  heartbeatsSent : Nat := 0
  acksReceived : Nat := 0
  syncRequested : Bool := false
  syncTarget : Nat := 0
  point : Worker.Point := .offline
  isOnline : Bool := false
  controlBacklog : List Write := []
  dataBacklog : List Write := []
  /-- The queue the processing thread reads. -/
  received : List Reply := []
  /-- Everything put on the wire, in order. -/
  wire : List Frame
  /-- What the broker has still to process. -/
  flight : List Frame
  processed : List Frame := []
  inbound : List Reply := []
  /-- The messages whose write returned true, in order. -/
  written : List Write := []
  caller : Worker.Caller := .idle

namespace Worker

inductive Label where
  | writeControlMessage (env : Envelope)
  | writeMessage (env : Envelope)
  | writeEncoded (env : Envelope)
  /-- Which sends of the step the pipe takes, and what the poll or the clock says. -/
  | loop (pipe : List Bool) (ready : Bool)
  | process
  | notify (reply : Reply)
  | lose (position : Nat)
  | loseReply (position : Nat)
  | call
  | request
  | await (expired : Bool)
  | stop
  | start
  deriving DecidableEq, Repr

/-- The socket is connected and leads with CONNECT, and the status is reported. -/
def initial : Worker := { wire := [.connect], flight := [.connect] }

/-- The messages a pipe takes; one it refuses is dropped. -/
def sendBatch : List Bool → List Write → List Write
  | _, [] => []
  | pipe, write :: rest =>
    if pipe.headD true then write :: sendBatch pipe.tail rest else sendBatch pipe.tail rest

/-- How many messages a pipe takes up to the first it refuses. -/
def flushControl : List Bool → List Write → Nat
  | _, [] => 0
  | pipe, _ :: rest => if pipe.headD true then flushControl pipe.tail rest + 1 else 0

/-- The oldest go first. -/
def trim (limit : Nat) (backlog : List Write) : List Write := backlog.drop (backlog.length - limit)

def put (frames : List Frame) (s : Worker) : Worker :=
  { s with wire := s.wire ++ frames, flight := s.flight ++ frames }

def putBatch (pipe : List Bool) (batch : List Write) (s : Worker) : Worker :=
  let sent := sendBatch pipe batch
  { s.put (sent.map .message) with droppedSends := s.droppedSends + (batch.length - sent.length) }

def goto (point : Point) (s : Worker) : Worker := { s with point }

/-- Counted whether or not the pipe took it. -/
def sendHeartbeat (pipe : List Bool) (s : Worker) : Worker :=
  let number := s.heartbeatsSent + 1
  { s.put (if pipe.headD true then [.heartbeat number] else []) with heartbeatsSent := number }

/-- The control queue is drained into the backlog, which goes out as far as the pipe takes it. -/
def drainControl (limit : Nat) (pipe : List Bool) (s : Worker) : Worker :=
  let backlog := trim limit (s.controlBacklog ++ s.controlQueue)
  let count := flushControl pipe backlog
  { s.put ((backlog.take count).map .message) with
    controlQueue := []
    controlBacklog := backlog.drop count
    droppedSends := s.droppedSends + ((s.controlBacklog ++ s.controlQueue).length - backlog.length) }

/-- An acknowledgement is counted; anything else is handed on if there is room for it. -/
def accept (reply : Reply) (s : Worker) : Worker :=
  if reply = .ack then { s with acksReceived := s.acksReceived + 1 }
  else if s.received.length < queueLimit then { s with received := s.received ++ [reply] }
  else s

def hold (batch : List Write) (s : Worker) : Worker :=
  let backlog := trim dataBacklogLimit (s.dataBacklog ++ batch)
  { s with
    dataBacklog := backlog
    droppedSends := s.droppedSends + ((s.dataBacklog ++ batch).length - backlog.length) }

/-- Data that arrived behind no control message goes out at once. -/
def place (pipe : List Bool) (batch : List Write) (s : Worker) : Worker :=
  if s.dataBacklog = [] ∧ s.controlBacklog = [] ∧ s.controlQueue = [] then s.putBatch pipe batch else s.hold batch

/-- One step of the loop. The status callback runs at `online` and `offline`. -/
def runLoop (pipe : List Bool) (ready : Bool) (s : Worker) : Worker :=
  match s.point with
  | .top =>
    if s.running then s.goto .receive
    -- the shutdown drain sends the backlog as it is
    else (s.drainControl (s.controlBacklog ++ s.controlQueue).length pipe).goto .ended
  | .receive =>
    match s.inbound with
    | [] => s.goto .drainControl
    | reply :: rest =>
      if ready then
        { s with inbound := rest, isOnline := true, point := if s.isOnline then .accept reply else .online reply }
      else s.goto .drainControl
  | .online reply => s.goto (.accept reply)
  | .accept reply => (s.accept reply).goto .drainControl
  | .drainControl => (s.drainControl controlBacklogLimit pipe).goto .drainOutbound
  | .drainOutbound =>
    if s.isOnline = true ∧ s.outboundQueue ≠ [] then
      { s with outboundQueue := [], point := .place s.outboundQueue }
    else s.goto .release
  | .place batch => (s.place pipe batch).goto .release
  | .release =>
    if s.dataBacklog ≠ [] ∧ s.controlBacklog = [] ∧ s.controlQueue = [] then
      { s.putBatch pipe s.dataBacklog with dataBacklog := [], point := .gate }
    else s.goto .gate
  | .gate =>
    if s.isOnline = true ∧ s.controlBacklog = [] ∧ s.controlQueue = [] ∧ s.hasEncoded = true then s.goto .drainEncoded
    else s.goto .checkControl
  | .drainEncoded => { s.putBatch pipe s.encodedQueue with encodedQueue := [], point := .checkControl }
  | .checkControl =>
    if s.isOnline = true ∧ s.controlBacklog = [] ∧ s.dataBacklog = [] ∧ s.controlQueue = [] then s.goto .checkOutbound
    else s.goto .keepAlive
  | .checkOutbound => if s.outboundQueue = [] then s.goto .checkEncoded else s.goto .keepAlive
  | .checkEncoded => if s.encodedQueue = [] then s.goto .look else s.goto .keepAlive
  | .look =>
    if s.syncRequested then { s with syncRequested := false, point := .beat } else s.goto .keepAlive
  | .beat => (s.sendHeartbeat pipe).goto .publish
  | .publish => { s with syncTarget := s.heartbeatsSent, point := .keepAlive }
  | .keepAlive => (if ready then s.sendHeartbeat pipe else s).goto .expire
  | .expire =>
    if s.isOnline = true ∧ ready = true then { s with isOnline := false, point := .offline } else s.goto .top
  | .offline => s.goto .top
  | .ended => s

/-- The next section of the call, where it has one: both waits look again whenever they wake. -/
def awaitSync (expired : Bool) (s : Worker) : Outcome Worker Event :=
  match s.caller with
  | .waiting promised =>
    if s.syncTarget ≠ 0 then ⟨{ s with caller := .confirming promised s.syncTarget },[]⟩
    else if expired = true ∨ s.running = false then
      ⟨{ s with syncRequested := false, caller := .idle },[.returned promised 0 false]⟩
    else ⟨s,[]⟩
  | .confirming promised target =>
    if target ≤ s.acksReceived then ⟨{ s with caller := .idle },[.returned promised target true]⟩
    else if expired = true ∨ s.running = false then ⟨{ s with caller := .idle },[.returned promised target false]⟩
    else ⟨s,[]⟩
  | _ => ⟨s,[]⟩

def requestSync (s : Worker) : Outcome Worker Event :=
  match s.caller with
  | .called promised =>
    if s.running then ⟨{ s with syncTarget := 0, syncRequested := true, caller := .waiting promised },[]⟩
    else ⟨{ s with caller := .idle },[.returned promised 0 false]⟩
  | _ => ⟨s,[]⟩

/-- A push finds room before its wait runs out, or leaves the queue as it is. -/
def enqueue (lane : Lane) (queue : List Write) (limit : Nat) (env : Envelope) (store : List Write → Worker)
    (s : Worker) : Outcome Worker Event :=
  let write : Write := ⟨lane,s.written.length,env⟩
  if queue.length < limit then ⟨{ store (queue ++ [write]) with written := s.written ++ [write] },[.wrote true]⟩
  else ⟨s,[.wrote false]⟩

def writeControlMessage (env : Envelope) (s : Worker) : Outcome Worker Event :=
  s.enqueue .control s.controlQueue controlBacklogLimit env fun controlQueue => { s with controlQueue }

def writeMessage (env : Envelope) (s : Worker) : Outcome Worker Event :=
  s.enqueue .outbound s.outboundQueue queueLimit env fun outboundQueue => { s with outboundQueue }

def writeEncoded (env : Envelope) (s : Worker) : Outcome Worker Event :=
  let s := { s with hasEncoded := true }
  s.enqueue .encoded s.encodedQueue queueLimit env fun encodedQueue => { s with encodedQueue }

/-- The broker answers a HEARTBEAT, whoever wrote it. -/
def process (s : Worker) : Worker :=
  match s.flight with
  | [] => s
  | frame :: rest =>
    { s with
      flight := rest
      processed := s.processed ++ [frame]
      inbound := if frame.key = Keys.heartbeat then s.inbound ++ [.ack] else s.inbound }

/-- A fresh socket and a fresh loop; the queues and both counters stay. -/
def restart (s : Worker) : Worker :=
  if s.point = .ended then
    { s.put [.connect] with
      running := true, point := .offline, isOnline := false, controlBacklog := [], dataBacklog := [], inbound := [] }
  else s

def step : Label → Worker → Outcome Worker Event
  | .writeControlMessage env, s => s.writeControlMessage env
  | .writeMessage env, s => s.writeMessage env
  | .writeEncoded env, s => s.writeEncoded env
  | .loop pipe ready, s => ⟨s.runLoop pipe ready,[]⟩
  | .process, s => ⟨s.process,[]⟩
  | .notify reply, s => ⟨if reply = .ack then s else { s with inbound := s.inbound ++ [reply] },[]⟩
  | .lose position, s => ⟨{ s with flight := s.flight.eraseIdx position },[]⟩
  | .loseReply position, s => ⟨{ s with inbound := s.inbound.eraseIdx position },[]⟩
  | .call, s => ⟨if s.caller = .idle then { s with caller := .called s.written.length } else s,[]⟩
  | .request, s => s.requestSync
  | .await expired, s => s.awaitSync expired
  | .stop, s => ⟨{ s with running := false },[]⟩
  | .start, s => ⟨s.restart,[]⟩

/-- What the loop has in hand between two steps. -/
def Point.batch : Point → List Write
  | .place batch => batch
  | _ => []

/-- The reply that the loop has taken and not yet accepted. -/
def Point.reply : Point → List Reply
  | .online reply | .accept reply => [reply]
  | _ => []

/-- Between the first queue found empty and the target. -/
def Point.Checking : Point → Prop
  | .checkOutbound | .checkEncoded | .look | .beat | .publish => True
  | _ => False

/-- Where a step that neither sends nor receives may go. -/
inductive Turn (s : Worker) : Point → Prop
  | away {point : Point} (early : ¬point.Checking) (empty : point.batch = [])
      (ended : s.point = .ended → point = .ended) : Turn s point
  | control (here : s.point = .checkControl) (flushed : s.controlBacklog = []) (cleared : s.dataBacklog = [])
      (drained : s.controlQueue = []) : Turn s .checkOutbound
  | outbound (here : s.point = .checkOutbound) (drained : s.outboundQueue = []) : Turn s .checkEncoded
  | encoded (here : s.point = .checkEncoded) (drained : s.encodedQueue = []) : Turn s .look
  | look (here : s.point = .look) (requested : s.syncRequested = true) : Turn s .beat

theorem Turn.empty {s : Worker} {point : Point} (turn : Turn s point) : point.batch = [] := by
  cases turn with
  | away early empty ended => exact empty
  | control | outbound | encoded | look => rfl

/-- What one step of the loop does. -/
inductive Advance (pipe : List Bool) (s : Worker) : Worker → Prop
  | turns {point : Point} (isOnline syncRequested : Bool) (lowers : syncRequested = true → s.syncRequested = true)
      (empty : s.point.batch = []) (kept : point.reply = s.point.reply) (turn : Turn s point) : Advance pipe s { s with point, isOnline, syncRequested }
  | receives {reply : Reply} {rest : List Reply} (here : s.point = .receive) (arrived : s.inbound = reply :: rest) :
      Advance pipe s
        { s with inbound := rest, isOnline := true, point := if s.isOnline then .accept reply else .online reply }
  | accepts {reply : Reply} (here : s.point = .accept reply) : Advance pipe s ((s.accept reply).goto .drainControl)
  | drains (here : s.point = .drainControl) :
      Advance pipe s ((s.drainControl controlBacklogLimit pipe).goto .drainOutbound)
  | ends (here : s.point = .top) (stopped : s.running = false) :
      Advance pipe s ((s.drainControl (s.controlBacklog ++ s.controlQueue).length pipe).goto .ended)
  | takes (here : s.point = .drainOutbound) (online : s.isOnline = true) :
      Advance pipe s { s with outboundQueue := [], point := .place s.outboundQueue }
  | sends {batch : List Write} (here : s.point = .place batch) (cleared : s.dataBacklog = [])
      (flushed : s.controlBacklog = []) (drained : s.controlQueue = []) :
      Advance pipe s ((s.putBatch pipe batch).goto .release)
  | holds {batch : List Write} (here : s.point = .place batch) : Advance pipe s ((s.hold batch).goto .release)
  | releases (here : s.point = .release) (flushed : s.controlBacklog = []) (drained : s.controlQueue = []) :
      Advance pipe s { s.putBatch pipe s.dataBacklog with dataBacklog := [], point := .gate }
  | forwards (here : s.point = .drainEncoded) :
      Advance pipe s { s.putBatch pipe s.encodedQueue with encodedQueue := [], point := .checkControl }
  | beats {point : Point} (here : s.point = .beat ∧ point = .publish ∨ s.point = .keepAlive ∧ point = .expire) :
      Advance pipe s ((s.sendHeartbeat pipe).goto point)
  | publishes (here : s.point = .publish) :
      Advance pipe s { s with syncTarget := s.heartbeatsSent, point := .keepAlive }

theorem Advance.away {pipe : List Bool} {s : Worker} {here point : Point} (same : s.point = here)
    (ended : here = .ended → point = .ended) (empty : here.batch = []) (kept : point.reply = here.reply)
    (early : ¬point.Checking) (none : point.batch = []) : Advance pipe s (s.goto point) :=
  .turns s.isOnline s.syncRequested id (same ▸ empty) (same ▸ kept) (.away early none (same ▸ ended))

theorem runLoop_advance (pipe : List Bool) (ready : Bool) (s : Worker) : Advance pipe s (s.runLoop pipe ready) := by
  unfold runLoop
  split
  next here =>
    split
    · exact .away here nofun rfl rfl id rfl
    next stopped => exact .ends here (Bool.eq_false_iff.mpr stopped)
  next here =>
    split
    · exact .away here nofun rfl rfl id rfl
    next arrived =>
      split
      · exact .receives here arrived
      · exact .away here nofun rfl rfl id rfl
  next here => exact .away here nofun rfl rfl id rfl
  next here => exact .accepts here
  next here => exact .drains here
  next here =>
    split
    next ready => exact .takes here ready.1
    · exact .away here nofun rfl rfl id rfl
  next batch here =>
    unfold place
    split
    next free => exact .sends here free.1 free.2.1 free.2.2
    · exact .holds here
  next here =>
    split
    next free => exact .releases here free.2.1 free.2.2
    · exact .away here nofun rfl rfl id rfl
  next here =>
    split
    · exact .away here nofun rfl rfl id rfl
    · exact .away here nofun rfl rfl id rfl
  next here => exact .forwards here
  next here =>
    split
    next free => exact .turns _ _ id (by rw [here]; rfl) (by rw [here]; rfl) (.control here free.2.1 free.2.2.1 free.2.2.2)
    · exact .away here nofun rfl rfl id rfl
  next here =>
    split
    next drained => exact .turns _ _ id (by rw [here]; rfl) (by rw [here]; rfl) (.outbound here drained)
    · exact .away here nofun rfl rfl id rfl
  next here =>
    split
    next drained => exact .turns _ _ id (by rw [here]; rfl) (by rw [here]; rfl) (.encoded here drained)
    · exact .away here nofun rfl rfl id rfl
  next here =>
    split
    next requested =>
      exact .turns s.isOnline false nofun (by rw [here]; rfl) (by rw [here]; rfl) (.look here requested)
    · exact .away here nofun rfl rfl id rfl
  next here => exact .beats (.inl ⟨here,rfl⟩)
  next here => exact .publishes here
  next here =>
    split
    · exact .beats (.inr ⟨here,rfl⟩)
    · exact .away here nofun rfl rfl id rfl
  next here =>
    split
    · exact .turns false s.syncRequested id (by rw [here]; rfl) (by rw [here]; rfl) (.away id rfl (by rw [here]; nofun))
    · exact .away here nofun rfl rfl id rfl
  next here => exact .away here nofun rfl rfl id rfl
  next here =>
    have turn : Advance pipe s (s.goto .ended) := .away here id rfl rfl id rfl
    rwa [goto,← here] at turn

/-- Wherever a written message can be before it is sent. -/
def places (s : Worker) : List Write :=
  s.controlQueue ++ s.outboundQueue ++ s.encodedQueue ++ s.controlBacklog ++ s.dataBacklog ++ s.point.batch

theorem mem_places {s : Worker} {write : Write} : write ∈ s.places ↔ write ∈ s.controlQueue ∨
    write ∈ s.outboundQueue ∨ write ∈ s.encodedQueue ∨ write ∈ s.controlBacklog ∨ write ∈ s.dataBacklog ∨
      write ∈ s.point.batch := by
  simp [places]

theorem sendBatch_sublist (pipe : List Bool) (batch : List Write) : (sendBatch pipe batch).Sublist batch := by
  induction batch generalizing pipe with
  | nil => exact List.nil_sublist _
  | cons write rest ih =>
    rw [sendBatch]
    split
    · exact (ih pipe.tail).cons_cons write
    · exact (ih pipe.tail).cons write

theorem trim_sublist (limit : Nat) (backlog : List Write) : (trim limit backlog).Sublist backlog :=
  List.drop_sublist _ _

/-- The loop moves messages among the places and out of them, never in. -/
theorem Advance.places {pipe : List Bool} {s s' : Worker} (advance : Advance pipe s s') {write : Write}
    (member : write ∈ s'.places) : write ∈ s.places := by
  have drained {limit : Nat} {point : Point} (none : point.batch = [])
      (member : write ∈ ((s.drainControl limit pipe).goto point).places) : write ∈ s.places := by
    have within {count : Nat} (member : write ∈ (trim limit (s.controlBacklog ++ s.controlQueue)).drop count) :
        write ∈ s.controlBacklog ∨ write ∈ s.controlQueue :=
      List.mem_append.mp ((trim_sublist _ _).subset (List.mem_of_mem_drop member))
    rw [mem_places] at member ⊢
    simp only [drainControl,goto,put,none,List.not_mem_nil,or_false,false_or] at member
    rcases member with outbound | encoded | backlog | data
    · exact .inr (.inl outbound)
    · exact .inr (.inr (.inl encoded))
    · rcases within backlog with older | newer
      · exact .inr (.inr (.inr (.inl older)))
      · exact .inl newer
    · exact .inr (.inr (.inr (.inr (.inl data))))
  cases advance with
  | turns isOnline syncRequested lowers empty kept turn => simpa [mem_places,empty,turn.empty] using member
  | receives here arrived => split at member <;> simpa [mem_places,here,Point.batch] using member
  | accepts here =>
    unfold accept at member
    split_ifs at member <;> simpa [goto,mem_places,here,Point.batch] using member
  | drains here | ends here stopped => exact drained rfl member
  | takes here online =>
    simp only [mem_places,here,Point.batch] at member ⊢
    grind
  | sends here cleared flushed drained =>
    simp only [mem_places,goto,putBatch,put,here,Point.batch] at member ⊢
    grind
  | @holds batch here =>
    have within (member : write ∈ trim dataBacklogLimit (s.dataBacklog ++ batch)) :
        write ∈ s.dataBacklog ∨ write ∈ s.point.batch := by
      rw [here]
      exact List.mem_append.mp ((trim_sublist _ _).subset member)
    rw [hold,goto] at member
    rw [mem_places] at member ⊢
    dsimp only at member
    rcases member with control | outbound | encoded | backlog | waits | none
    · exact .inl control
    · exact .inr (.inl outbound)
    · exact .inr (.inr (.inl encoded))
    · exact .inr (.inr (.inr (.inl backlog)))
    · exact .inr (.inr (.inr (.inr (within waits))))
    · cases none
  | releases here flushed drained | forwards here =>
    simp only [mem_places,putBatch,put,here,Point.batch] at member ⊢
    grind
  | @beats point here =>
    have empty : s.point.batch = [] ∧ point.batch = [] := by
      rcases here with ⟨here,rfl⟩ | ⟨here,rfl⟩ <;> rw [here] <;> exact ⟨rfl,rfl⟩
    simpa [sendHeartbeat,goto,put,mem_places,empty] using member
  | publishes here => simpa [mem_places,here,Point.batch] using member

section

variable {s : Worker} {write new : Write}

theorem mem_places_control :
    write ∈ places { s with controlQueue := s.controlQueue ++ [new] } ↔ write ∈ s.places ∨ write = new := by
  simp only [mem_places,List.mem_append,List.mem_singleton]
  grind

theorem mem_places_outbound :
    write ∈ places { s with outboundQueue := s.outboundQueue ++ [new] } ↔ write ∈ s.places ∨ write = new := by
  simp only [mem_places,List.mem_append,List.mem_singleton]
  grind

theorem mem_places_encoded :
    write ∈ places { s with encodedQueue := s.encodedQueue ++ [new] } ↔ write ∈ s.places ∨ write = new := by
  simp only [mem_places,List.mem_append,List.mem_singleton]
  grind

end

/-- The labels of a call of `sync`. -/
def Label.Syncs : Label → Prop
  | .call | .request | .await _ => True
  | _ => False

/-- A call of `sync` touches nothing but its own flags, and only its request raises one. -/
theorem step_syncs (s : Worker) {label : Label} (syncs : label.Syncs) : ∃ syncTarget syncRequested caller,
    (step label s).state = { s with syncTarget, syncRequested, caller } ∧
      (label ≠ .request → s.syncRequested = false → syncRequested = false) := by
  cases label with
  | call =>
    simp only [step]
    split <;> exact ⟨_,_,_,rfl,fun _ => id⟩
  | request =>
    simp only [step,requestSync]
    split
    · split <;> exact ⟨_,_,_,rfl,fun other => absurd rfl other⟩
    · exact ⟨_,_,_,rfl,fun _ => id⟩
  | await expired =>
    simp only [step,awaitSync]
    split
    · split_ifs
      · exact ⟨_,_,_,rfl,fun _ => id⟩
      · exact ⟨_,_,_,rfl,fun _ _ => rfl⟩
      · exact ⟨_,_,_,rfl,fun _ => id⟩
    · split_ifs <;> exact ⟨_,_,_,rfl,fun _ => id⟩
    · exact ⟨_,_,_,rfl,fun _ => id⟩
  | _ => exact syncs.elim

/-- From the start to the first answer; the loop is about to drain. -/
def comeOnline : List Label :=
  List.replicate 8 (.loop [] false) ++
    [.loop [] true,.process,.process,.loop [] false,.loop [] false,.loop [] true,.loop [] true,.loop [] true]

def publication : Envelope := { header := { handlerKey := str "t", topic := str "t" } }

end Worker

end Wisp
