import Wisp.WorkerOrder

/-! What follows a DISCONNECT on the wire. It is the last message written, but its lane
is drained ahead of the others and the loop goes on until it has seen the stop. -/
namespace Wisp

open Transition

namespace Worker

/-- The DISCONNECT is a control message and nothing is written behind it. -/
def Final (s : Worker) : Label → Prop
  | .writeControlMessage _ => ∀ write ∈ s.written, write.envelope.header.handlerKey ≠ Keys.disconnect
  | .writeMessage env | .writeEncoded env => env.header.handlerKey ≠ Keys.disconnect ∧
      ∀ write ∈ s.written, write.envelope.header.handlerKey ≠ Keys.disconnect
  | .start => False
  | _ => True

/-- No data is queued and no `sync` waits for its heartbeat. -/
def Idle (s : Worker) : Prop := s.syncRequested = false ∧ s.outboundQueue = [] ∧ s.encodedQueue = []

instance (s : Worker) : Decidable s.Idle := inferInstanceAs (Decidable (_ ∧ _))

/-- The next section of the call is its request. -/
def Caller.asks : Caller → Bool
  | .called _ => true
  | _ => false

/-- An ordinary drain meets the DISCONNECT only with no data in the backlog and, online, none
queued; once it is out no heartbeat falls due, no `sync` is asked of an online worker, and one
that still holds data or a request hears nothing. -/
def Parting (s : Worker) : Label → Prop
  | .loop _ ready =>
    (s.point = .drainControl → (∃ write ∈ s.waiting .control, write.envelope.header.handlerKey = Keys.disconnect) →
      s.dataBacklog = [] ∧ (s.isOnline = true → s.Idle)) ∧
    (ready = true → (∃ frame ∈ s.wire, frame.key = Keys.disconnect) →
      s.point ≠ .keepAlive ∧ (s.point = .receive → s.inbound ≠ [] → s.Idle))
  | .request => s.caller.asks = true → s.running = true → s.isOnline = true →
      ∀ frame ∈ s.wire, frame.key ≠ Keys.disconnect
  | _ => True

instance (s : Worker) : ∀ label, Decidable (s.Final label)
  | .writeControlMessage _ => inferInstanceAs (Decidable (∀ write ∈ s.written, _))
  | .writeMessage _ | .writeEncoded _ => inferInstanceAs (Decidable (_ ∧ ∀ write ∈ s.written, _))
  | .start => isFalse id
  | .loop _ _ | .process | .notify _ | .lose _ | .loseReply _ | .call | .request | .await _ | .stop => isTrue trivial

instance (s : Worker) : ∀ label, Decidable (s.Parting label)
  | .loop _ ready => inferInstanceAs (Decidable ((s.point = .drainControl → _) ∧ (ready = true → _)))
  | .request => inferInstanceAs (Decidable (s.caller.asks = true → _))
  | .writeControlMessage _ | .writeMessage _ | .writeEncoded _ | .process | .notify _ | .lose _ | .loseReply _ | .call
  | .await _ | .stop | .start => isTrue trivial

/-- Reached only online. -/
def Point.Sending : Point → Prop
  | .drainEncoded | .checkOutbound | .checkEncoded | .look => True
  | _ => False

/-- With nothing ahead of it but what an offline worker holds, the loop sends nothing. -/
structure Hushed (s : Worker) : Prop where
  control : s.controlQueue = []
  flushed : s.controlBacklog = []
  data : s.dataBacklog = []
  hand : s.point.batch = []
  unasked : s.point ≠ .beat
  online : s.point.Sending → s.isOnline = true
  idle : s.isOnline = true → s.Idle

/-- The DISCONNECT is out, as the last frame, and the loop will not send another. -/
structure Parted (s : Worker) (front : List Frame) (goodbye : Write) : Prop where
  key : goodbye.envelope.header.handlerKey = Keys.disconnect
  wire : s.wire = front ++ [.message goodbye]
  only : ∀ frame ∈ front, frame.key ≠ Keys.disconnect
  silent : s.point = .ended ∨ s.Hushed

structure Leaving (s : Worker) : Prop where
  ordered : InOrder s
  last : ∀ write ∈ s.written, write.envelope.header.handlerKey = Keys.disconnect →
    write.lane = .control ∧ write.serial + 1 = s.written.length
  parted : (∀ frame ∈ s.wire, frame.key ≠ Keys.disconnect) ∨ ∃ front goodbye, Parted s front goodbye

theorem initial_leaving : Leaving initial :=
  ⟨initial_inOrder,nofun,.inl (by decide)⟩

section

variable {s : Worker} {pipe : List Bool} {ready : Bool}

theorem Hushed.goto (hushed : Hushed s) {point : Point} (hand : point.batch = []) (unasked : point ≠ .beat)
    (online : point.Sending → s.isOnline = true) : Hushed (s.goto point) :=
  ⟨hushed.control,hushed.flushed,hushed.data,hand,unasked,online,hushed.idle⟩

/-- A drain that finds nothing puts nothing on the wire. -/
theorem Hushed.drains (hushed : Hushed s) (limit : Nat) :
    ((s.drainControl limit pipe).goto .drainOutbound).wire = s.wire ∧
      Hushed ((s.drainControl limit pipe).goto .drainOutbound) := by
  have none : trim limit (s.controlBacklog ++ s.controlQueue) = [] := by
    rw [hushed.flushed,hushed.control]
    exact List.drop_nil
  refine ⟨?_,rfl,?_,hushed.data,rfl,by rintro ⟨⟩,False.elim,hushed.idle⟩
  · simp [Worker.goto,drainControl,put,none]
  · simp [Worker.goto,drainControl,put,none]

theorem Hushed.places (hushed : Hushed s) :
    ((s.place pipe []).goto .release).wire = s.wire ∧ Hushed ((s.place pipe []).goto .release) := by
  unfold place
  split
  · refine ⟨List.append_nil _,hushed.control,hushed.flushed,hushed.data,rfl,?_,?_,hushed.idle⟩
    · rintro ⟨⟩
    · exact fun sending => sending.elim
  · rw [hold,Worker.goto]
    refine ⟨rfl,hushed.control,hushed.flushed,?_,rfl,?_,?_,fun online => ?_⟩
    · simp [trim,hushed.data]
    · rintro ⟨⟩
    · exact fun sending => sending.elim
    · obtain ⟨unasked,outbound,encoded⟩ := hushed.idle online
      exact ⟨unasked,outbound,encoded⟩

theorem Hushed.accepts (hushed : Hushed s) (reply : Reply) :
    (s.accept reply).wire = s.wire ∧ Hushed (s.accept reply) := by
  unfold accept
  split_ifs
  · exact ⟨rfl,hushed.control,hushed.flushed,hushed.data,hushed.hand,hushed.unasked,hushed.online,hushed.idle⟩
  · exact ⟨rfl,hushed.control,hushed.flushed,hushed.data,hushed.hand,hushed.unasked,hushed.online,hushed.idle⟩
  · exact ⟨rfl,hushed⟩

/-- What comes in may bring the worker online. -/
theorem Hushed.receives (hushed : Hushed s) (here : s.point = .receive) (deaf : ready = true → s.inbound ≠ [] → s.Idle) :
    (s.runLoop pipe ready).wire = s.wire ∧ Hushed (s.runLoop pipe ready) := by
  rw [Worker.runLoop,here]
  dsimp only
  split
  · exact ⟨rfl,hushed.goto rfl (by rintro ⟨⟩) False.elim⟩
  next reply rest arrived =>
    split
    next hears =>
      have free := deaf hears (by rw [arrived]; exact List.cons_ne_nil _ _)
      refine ⟨rfl,hushed.control,hushed.flushed,hushed.data,?_,?_,fun _ => rfl,fun _ => free⟩
      · dsimp only
        split <;> rfl
      · dsimp only
        split <;> rintro ⟨⟩
    · exact ⟨rfl,hushed.goto rfl (by rintro ⟨⟩) False.elim⟩

theorem Hushed.encodes (hushed : Hushed s) (here : s.point = .drainEncoded) :
    (s.runLoop pipe ready).wire = s.wire ∧ Hushed (s.runLoop pipe ready) := by
  have empty := (hushed.idle (hushed.online (by rw [here]; trivial))).2.2
  rw [Worker.runLoop,here]
  refine ⟨?_,hushed.control,hushed.flushed,hushed.data,rfl,by rintro ⟨⟩,False.elim,fun online => ?_⟩
  · simp [putBatch,put,empty,sendBatch]
  · exact ⟨(hushed.idle online).1,(hushed.idle online).2.1,rfl⟩

/-- One case for each point of the loop: where it would send, its queue is empty. -/
theorem Hushed.runLoop (hushed : Hushed s) (undue : ready = true → s.point ≠ .keepAlive)
    (deaf : ready = true → s.point = .receive → s.inbound ≠ [] → s.Idle) :
    (s.runLoop pipe ready).wire = s.wire ∧ ((s.runLoop pipe ready).point = .ended ∨ Hushed (s.runLoop pipe ready)) := by
  have turn {point : Point} (hand : point.batch = []) (unasked : point ≠ .beat)
      (online : point.Sending → s.isOnline = true) :
      (s.goto point).wire = s.wire ∧ ((s.goto point).point = .ended ∨ Hushed (s.goto point)) :=
    ⟨rfl,.inr (hushed.goto hand unasked online)⟩
  cases here : s.point with
  | receive => exact (hushed.receives here fun hears => deaf hears here).imp_right .inr
  | drainEncoded => exact (hushed.encodes here).imp_right .inr
  | beat => exact (hushed.unasked here).elim
  | top =>
    rw [Worker.runLoop,here]
    dsimp only
    split
    · exact turn rfl (by rintro ⟨⟩) False.elim
    · refine ⟨?_,.inl rfl⟩
      simp [Worker.goto,drainControl,put,hushed.flushed,hushed.control,trim]
  | online | offline =>
    rw [Worker.runLoop,here]
    exact turn rfl (by rintro ⟨⟩) False.elim
  | accept reply =>
    have same := hushed.accepts reply
    rw [Worker.runLoop,here]
    exact ⟨same.1,.inr (same.2.goto rfl (by rintro ⟨⟩) False.elim)⟩
  | drainControl =>
    rw [Worker.runLoop,here]
    exact ⟨(hushed.drains _).1,.inr (hushed.drains _).2⟩
  | drainOutbound =>
    rw [Worker.runLoop,here]
    dsimp only
    split
    next queued => exact (queued.2 (hushed.idle queued.1).2.1).elim
    · exact turn rfl (by rintro ⟨⟩) False.elim
  | place batch =>
    obtain rfl : batch = [] := by
      have hand := hushed.hand
      rwa [here] at hand
    rw [Worker.runLoop,here]
    exact ⟨hushed.places.1,.inr hushed.places.2⟩
  | release =>
    rw [Worker.runLoop,here]
    dsimp only
    split
    next waits => exact (waits.1 hushed.data).elim
    · exact turn rfl (by rintro ⟨⟩) False.elim
  | gate | checkControl =>
    rw [Worker.runLoop,here]
    dsimp only
    split
    next free => exact turn rfl (by rintro ⟨⟩) fun _ => free.1
    · exact turn rfl (by rintro ⟨⟩) False.elim
  | checkOutbound | checkEncoded =>
    have online := hushed.online (by rw [here]; trivial)
    rw [Worker.runLoop,here]
    dsimp only
    split
    · exact turn rfl (by rintro ⟨⟩) fun _ => online
    · exact turn rfl (by rintro ⟨⟩) False.elim
  | look =>
    have unrequested := (hushed.idle (hushed.online (by rw [here]; trivial))).1
    rw [Worker.runLoop,here,unrequested]
    exact turn rfl (by rintro ⟨⟩) False.elim
  | publish =>
    rw [Worker.runLoop,here]
    exact ⟨rfl,.inr ⟨hushed.control,hushed.flushed,hushed.data,rfl,by rintro ⟨⟩,False.elim,hushed.idle⟩⟩
  | keepAlive =>
    rw [Worker.runLoop,here]
    cases ready with
    | true => exact (undue rfl here).elim
    | false => exact turn rfl (by rintro ⟨⟩) False.elim
  | expire =>
    rw [Worker.runLoop,here]
    dsimp only
    split
    · exact ⟨rfl,.inr ⟨hushed.control,hushed.flushed,hushed.data,rfl,by rintro ⟨⟩,False.elim,by rintro ⟨⟩⟩⟩
    · exact turn rfl (by rintro ⟨⟩) False.elim
  | ended =>
    rw [Worker.runLoop,here]
    exact ⟨rfl,.inl here⟩

/-- With nothing left to send the loop turns on in silence. -/
theorem Parted.runLoop {front : List Frame} {goodbye : Write} (parted : Parted s front goodbye)
    (undue : ready = true → s.point ≠ .keepAlive) (deaf : ready = true → s.point = .receive → s.inbound ≠ [] → s.Idle) :
    Parted (s.runLoop pipe ready) front goodbye := by
  obtain ⟨key,wire,only,ended | hushed⟩ := parted
  · have stays : s.runLoop pipe ready = s := by
      unfold Worker.runLoop
      rw [ended]
    rw [stays]
    exact ⟨key,wire,only,.inl ended⟩
  · obtain ⟨same,silent⟩ := hushed.runLoop undue deaf
    exact ⟨key,same.trans wire,only,silent⟩

end

/-- A call of `sync` raises its flag in its request alone, and of a running worker. -/
theorem step_raises (s : Worker) {label : Label} (syncs : label.Syncs) : ∃ syncTarget syncRequested caller,
    (step label s).state = { s with syncTarget, syncRequested, caller } ∧
      (syncRequested = true → s.syncRequested = true ∨ label = .request ∧ s.caller.asks = true ∧ s.running = true) := by
  by_cases request : label = .request
  · subst request
    simp only [step,requestSync]
    split
    next promised asks =>
      split
      next running => exact ⟨_,_,_,rfl,fun _ => .inr ⟨trivial,by rw [asks]; rfl,running⟩⟩
      · exact ⟨_,_,_,rfl,.inl⟩
    · exact ⟨_,_,_,rfl,.inl⟩
  · obtain ⟨syncTarget,syncRequested,caller,state,unraised⟩ := step_syncs s syncs
    refine ⟨syncTarget,syncRequested,caller,state,fun raised => .inl ?_⟩
    by_contra lowered
    cases raised.symm.trans (unraised request (Bool.eq_false_iff.mpr lowered))

section

variable {s : Worker} (leaving : Leaving s)

include leaving

theorem Leaving.written_of_wire {write : Write} (member : .message write ∈ s.wire) : write ∈ s.written := by
  have listed := (leaving.ordered.lined write.lane).subset (List.mem_append_left _ (mem_carried.mpr ⟨member,rfl⟩))
  exact List.mem_of_mem_filter listed

theorem Leaving.written_of_waiting {lane : Lane} {write : Write} (member : write ∈ s.waiting lane) : write ∈ s.written :=
  List.mem_of_mem_filter ((leaving.ordered.lined lane).subset (List.mem_append_right _ member))

/-- Whatever stands behind the DISCONNECT on its lane would have been written later. -/
theorem Leaving.nothing_behind (front rest : List Write) {goodbye : Write}
    (key : goodbye.envelope.header.handlerKey = Keys.disconnect)
    (part : (front ++ goodbye :: rest).Sublist (s.waiting .control)) : rest = [] := by
  have listed := part.trans ((List.sublist_append_right _ _).trans ((leaving.ordered.lined .control).trans
    List.filter_sublist))
  have numbered := leaving.ordered.numbered.sublist listed
  rw [List.pairwise_append,List.pairwise_cons] at numbered
  refine List.eq_nil_iff_forall_not_mem.mpr fun later member => ?_
  have after := numbered.2.1.1 later member
  have counted := leaving.ordered.counted later (listed.subset (by simp [member]))
  have last := (leaving.last goodbye (listed.subset (by simp)) key).2
  omega

/-- A batch off the control lane either has no DISCONNECT or ends with it. -/
theorem Leaving.batch_parts {batch rest : List Write} (part : (batch ++ rest).Sublist (s.waiting .control)) :
    (∀ write ∈ batch, write.envelope.header.handlerKey ≠ Keys.disconnect) ∨ rest = [] ∧
      ∃ front goodbye, batch = front ++ [goodbye] ∧ goodbye.envelope.header.handlerKey = Keys.disconnect ∧
        ∀ write ∈ front, write.envelope.header.handlerKey ≠ Keys.disconnect := by
  by_cases none : ∀ write ∈ batch, write.envelope.header.handlerKey ≠ Keys.disconnect
  · exact .inl none
  · push Not at none
    obtain ⟨goodbye,member,key⟩ := none
    obtain ⟨front,later,rfl⟩ := List.append_of_mem member
    have nothing : later ++ rest = [] := by
      refine leaving.nothing_behind front _ key ?_
      simpa using part
    obtain ⟨rfl,rfl⟩ := List.append_eq_nil_iff.mp nothing
    refine .inr ⟨rfl,front,goodbye,rfl,key,fun write early again => ?_⟩
    obtain ⟨before,between,rfl⟩ := List.append_of_mem early
    have := leaving.nothing_behind before (between ++ [goodbye]) again (by simpa using part)
    simp at this

theorem Leaving.drains {pipe : List Bool} {limit : Nat} {point : Point}
    (still : ∀ frame ∈ s.wire, frame.key ≠ Keys.disconnect) (silent : point = .ended ∨
      ((∃ write ∈ s.waiting .control, write.envelope.header.handlerKey = Keys.disconnect) →
        s.dataBacklog = [] ∧ (s.isOnline = true → s.Idle)) ∧
      point = .drainOutbound) :
    (∀ frame ∈ ((s.drainControl limit pipe).goto point).wire, frame.key ≠ Keys.disconnect) ∨
      ∃ front goodbye, Parted ((s.drainControl limit pipe).goto point) front goodbye := by
  let backlog := trim limit (s.controlBacklog ++ s.controlQueue)
  have part : (backlog.take (flushControl pipe backlog) ++ backlog.drop (flushControl pipe backlog)).Sublist
      (s.waiting .control) := by
    rw [List.take_append_drop]
    exact trim_sublist _ _
  rcases leaving.batch_parts part with none | ⟨rest,front,goodbye,batch,key,only⟩
  · refine .inl fun frame member => ?_
    rcases List.mem_append.mp member with old | new
    · exact still frame old
    · obtain ⟨write,listed,rfl⟩ := List.mem_map.mp new
      exact none write listed
  · refine .inr ⟨s.wire ++ front.map .message,goodbye,key,?_,fun frame member => ?_,?_⟩
    · have wire : ((s.drainControl limit pipe).goto point).wire =
          s.wire ++ (backlog.take (flushControl pipe backlog)).map .message := rfl
      rw [wire,batch]
      simp
    · rcases List.mem_append.mp member with old | new
      · exact still frame old
      · obtain ⟨write,listed,rfl⟩ := List.mem_map.mp new
        exact only write listed
    · rcases silent with rfl | ⟨calm,rfl⟩
      · exact .inl rfl
      · have listed : goodbye ∈ s.waiting .control :=
          part.subset (List.mem_append_left _ (by rw [batch]; simp))
        obtain ⟨data,idle⟩ := calm ⟨goodbye,listed,key⟩
        exact .inr ⟨rfl,rest,data,rfl,by rintro ⟨⟩,False.elim,idle⟩

/-- Nothing off the other lanes is a DISCONNECT. -/
theorem Leaving.others {lane : Lane} (other : lane ≠ .control) {write : Write} (member : write ∈ s.waiting lane) :
    write.envelope.header.handlerKey ≠ Keys.disconnect := by
  intro key
  have same := (leaving.last write (leaving.written_of_waiting member) key).1
  rw [leaving.ordered.lane_waiting member] at same
  exact other same

theorem Leaving.advance {pipe : List Bool} {s' : Worker} (advance : Advance pipe s s')
    (still : ∀ frame ∈ s.wire, frame.key ≠ Keys.disconnect)
    (calm : s.point = .drainControl → (∃ write ∈ s.waiting .control, write.envelope.header.handlerKey = Keys.disconnect) →
      s.dataBacklog = [] ∧ (s.isOnline = true → s.Idle)) :
    (∀ frame ∈ s'.wire, frame.key ≠ Keys.disconnect) ∨ ∃ front goodbye, Parted s' front goodbye := by
  have sends (lane : Lane) (other : lane ≠ .control) {batch : List Write} (held : ∀ write ∈ batch, write ∈ s.waiting lane)
      (wire : s'.wire = s.wire ++ (sendBatch pipe batch).map .message) : ∀ frame ∈ s'.wire, frame.key ≠ Keys.disconnect := by
    intro frame member
    rw [wire,List.mem_append] at member
    rcases member with old | new
    · exact still frame old
    · obtain ⟨write,listed,rfl⟩ := List.mem_map.mp new
      exact leaving.others other (held write ((sendBatch_sublist _ _).subset listed))
  cases advance with
  | drains here => exact leaving.drains still (.inr ⟨calm here,rfl⟩)
  | ends here stopped => exact leaving.drains still (.inl rfl)
  | sends here cleared flushed drained =>
    refine .inl (sends .outbound (by rintro ⟨⟩) (fun write member => ?_) rfl)
    simp [waiting,here,Point.batch,member]
  | releases here flushed drained =>
    refine .inl (sends .outbound (by rintro ⟨⟩) (fun write member => ?_) rfl)
    simp [waiting,member]
  | forwards here => exact .inl (sends .encoded (by rintro ⟨⟩) (fun write member => member) rfl)
  | beats here =>
    refine .inl fun frame member => ?_
    simp only [goto,sendHeartbeat,put,List.mem_append] at member
    rcases member with old | new
    · exact still frame old
    · split at new
      · rw [List.mem_singleton.mp new]
        exact (by decide : Keys.heartbeat ≠ Keys.disconnect)
      · cases new
  | accepts here =>
    unfold accept
    split_ifs <;> exact .inl still
  | holds here =>
    rw [hold,goto]
    exact .inl still
  | turns | receives | takes | publishes => exact .inl still

/-- A write is not behind the DISCONNECT, so that is not out yet either. -/
theorem Leaving.unwritten (none : ∀ write ∈ s.written, write.envelope.header.handlerKey ≠ Keys.disconnect) :
    ∀ frame ∈ s.wire, frame.key ≠ Keys.disconnect := by
  rcases leaving.parted with still | ⟨front,goodbye,parted⟩
  · exact still
  · have member : .message goodbye ∈ s.wire := by rw [parted.wire]; simp
    exact (none goodbye (leaving.written_of_wire member) parted.key).elim

theorem Leaving.enqueued {lane : Lane} {queue : List Write} {limit : Nat} {env : Envelope}
    {store : List Write → Worker} {s' : Worker} (ordered : InOrder (s'.enqueue lane queue limit env store).state)
    (same : s'.written = s.written ∧ s'.wire = s.wire ∧ ∀ stored, (store stored).wire = s.wire)
    (none : ∀ write ∈ s.written, write.envelope.header.handlerKey ≠ Keys.disconnect)
    (own : env.header.handlerKey = Keys.disconnect → lane = .control) :
    Leaving (s'.enqueue lane queue limit env store).state := by
  obtain ⟨written,wire,stored⟩ := same
  have still := leaving.unwritten none
  unfold enqueue at ordered ⊢
  dsimp only at ordered ⊢
  split
  next room =>
    rw [if_pos room] at ordered
    refine ⟨ordered,fun write member key => ?_,.inl fun frame member => still frame (by rwa [← stored])⟩
    rw [written] at member ⊢
    rcases List.mem_append.mp member with old | new
    · exact (none write old key).elim
    · rw [List.mem_singleton.mp new] at key ⊢
      exact ⟨own key,by simp⟩
  next full =>
    rw [if_neg full] at ordered
    refine ⟨ordered,fun write member key => ?_,.inl fun frame member => still frame (by rwa [← wire])⟩
    rw [written] at member
    exact (none write member key).elim

/-- A step that sends nothing and gives the loop nothing to send. -/
theorem Leaving.same {s' : Worker} (ordered : InOrder s') (written : s'.written = s.written) (wire : s'.wire = s.wire)
    (point : s'.point = s.point) (hushed : (∃ frame ∈ s.wire, frame.key = Keys.disconnect) → Hushed s → Hushed s') :
    Leaving s' := by
  refine ⟨ordered,?_,?_⟩
  · rw [written]
    exact leaving.last
  · rcases leaving.parted with still | ⟨front,goodbye,key,out,only,silent⟩
    · rw [wire]
      exact .inl still
    · refine .inr ⟨front,goodbye,key,by rw [wire,out],only,?_⟩
      rw [point]
      refine silent.imp_right (hushed ⟨.message goodbye,?_,key⟩)
      rw [out]
      exact List.mem_append_right _ (List.mem_singleton_self _)

theorem Leaving.syncs {label : Label} (ordered : InOrder (Worker.step label s).state) (syncs : label.Syncs)
    (parting : s.Parting label) : Leaving (Worker.step label s).state := by
  obtain ⟨syncTarget,syncRequested,caller,state,raises⟩ := step_raises s syncs
  rw [state] at ordered ⊢
  refine leaving.same ordered rfl rfl rfl fun ⟨frame,member,key⟩ hushed => ?_
  refine ⟨hushed.control,hushed.flushed,hushed.data,hushed.hand,hushed.unasked,hushed.online,fun online => ?_⟩
  refine ⟨Bool.eq_false_iff.mpr fun raised => ?_,(hushed.idle online).2⟩
  rcases raises raised with already | ⟨rfl,asks,running⟩
  · cases already.symm.trans (hushed.idle online).1
  · exact parting asks running online frame member key

theorem Leaving.step (label : Label) (final : s.Final label) (parting : s.Parting label) :
    Leaving (step label s).state := by
  have ordered := leaving.ordered.step label
  have alike {inbound : List Reply} {flight processed : List Frame} {running : Bool} (hushed : Hushed s) :
      Hushed { s with inbound, flight, processed, running } :=
    ⟨hushed.control,hushed.flushed,hushed.data,hushed.hand,hushed.unasked,hushed.online,hushed.idle⟩
  by_cases syncs : label.Syncs
  · exact leaving.syncs ordered syncs parting
  cases label with
  | writeControlMessage env => exact leaving.enqueued ordered ⟨rfl,rfl,fun _ => rfl⟩ final fun _ => rfl
  | writeMessage env => exact leaving.enqueued ordered ⟨rfl,rfl,fun _ => rfl⟩ final.2 fun key => (final.1 key).elim
  | writeEncoded env => exact leaving.enqueued ordered ⟨rfl,rfl,fun _ => rfl⟩ final.2 fun key => (final.1 key).elim
  | loop pipe ready =>
    have advance := runLoop_advance pipe ready s
    have written : (s.runLoop pipe ready).written = s.written := by
      obtain ⟨lane,frames,shift⟩ := leaving.ordered.advance advance
      exact shift.written
    refine ⟨ordered,?_,?_⟩
    · simp only [Worker.step,written]
      exact leaving.last
    · rcases leaving.parted with still | ⟨front,goodbye,parted⟩
      · exact leaving.advance advance still parting.1
      · have out : ∃ frame ∈ s.wire, frame.key = Keys.disconnect := by
          refine ⟨.message goodbye,?_,parted.key⟩
          rw [parted.wire]
          exact List.mem_append_right _ (List.mem_singleton_self _)
        exact .inr ⟨front,goodbye,parted.runLoop (fun due => (parting.2 due out).1) fun due => (parting.2 due out).2⟩
  | process =>
    simp only [Worker.step,process] at ordered ⊢
    split at ordered
    · exact leaving
    · exact leaving.same ordered rfl rfl rfl fun _ => alike
  | notify reply =>
    simp only [Worker.step] at ordered ⊢
    split at ordered
    next ack => rwa [if_pos ack]
    next other =>
      rw [if_neg other]
      exact leaving.same ordered rfl rfl rfl fun _ => alike
  | lose position | loseReply position | stop => exact leaving.same ordered rfl rfl rfl fun _ => alike
  | call | request | await expired => exact absurd trivial syncs
  | start => exact final.elim

end

/-- In every run that ends its writes with the DISCONNECT and whose steps part in order,
nothing follows it on the wire. -/
theorem goodbye_is_last (schedule : List Label)
    (parting : Always step (fun s label => s.Final label ∧ s.Parting label) schedule initial) :
    ∀ goodbye front rest, goodbye.envelope.header.handlerKey = Keys.disconnect →
      (run step schedule initial).state.wire = front ++ .message goodbye :: rest → rest = [] := by
  intro goodbye front rest key wire
  have leaving := run_invariant step Leaving (fun s label met leaving => leaving.step label met.1 met.2) schedule initial
    parting initial_leaving
  rcases leaving.parted with still | ⟨before,last,parted⟩
  · exact (still (.message goodbye) (by rw [wire]; simp) key).elim
  · have same := wire.symm.trans parted.wire
    rcases List.eq_nil_or_concat rest with none | ⟨later,frame,rfl⟩
    · exact none
    · -- the DISCONNECT would be ahead of the last frame
      have split : front ++ .message goodbye :: later = before := by
        have : (front ++ .message goodbye :: later) ++ [frame] = before ++ [.message last] := by simpa using same
        exact (List.append_inj' this rfl).1
      exact (parted.only (.message goodbye) (by rw [← split]; simp) key).elim

def disconnect : Envelope := Wire.makeControl Keys.disconnect (str "c") []

/-- `ConnectionManager::shutdown`: the loop has drained the DISCONNECT and come round again
before the stop is called. -/
def partInTime : List Label :=
  comeOnline ++ [.writeControlMessage disconnect] ++ List.replicate 16 (.loop [] false) ++ [.stop] ++
    List.replicate 16 (.loop [] false)

/-- A worker that has heard no broker yet goes with its data. -/
def partOffline : List Label :=
  List.replicate 8 (.loop [] false) ++ [.loop [] true,.loop [] false,.writeMessage publication,
    .writeControlMessage disconnect] ++ List.replicate 12 (.loop [] false) ++ [.stop] ++ List.replicate 12 (.loop [] false)

theorem goodbye_is_last_in_time :
    (.message ⟨.control,0,disconnect⟩ ∈ (run step (partInTime.take 20) initial).state.wire ∧
      (run step (partInTime.take 20) initial).state.running = true ∧
      (run step partInTime initial).state.point = .ended ∧
      ∀ front rest, (run step partInTime initial).state.wire = front ++ .message ⟨.control,0,disconnect⟩ :: rest →
        rest = []) ∧
    (.message ⟨.control,1,disconnect⟩ ∈ (run step partOffline initial).state.wire ∧
      (run step partOffline initial).state.outboundQueue = [⟨.outbound,0,publication⟩] ∧
      (run step partOffline initial).state.point = .ended ∧
      ∀ front rest, (run step partOffline initial).state.wire = front ++ .message ⟨.control,1,disconnect⟩ :: rest →
        rest = []) :=
  ⟨⟨by decide +kernel,by decide +kernel,by decide +kernel,fun front rest =>
      goodbye_is_last partInTime (by decide +kernel) _ front rest rfl⟩,
    by decide +kernel,by decide +kernel,by decide +kernel,fun front rest =>
      goodbye_is_last partOffline (by decide +kernel) _ front rest rfl⟩

/-- A message written before the DISCONNECT is drained after it. -/
theorem message_behind_goodbye :
    Always step Final (comeOnline ++ [.writeMessage publication,.writeControlMessage disconnect,.stop,.loop [] false,
        .loop [] false,.loop [] false]) initial ∧
      (run step (comeOnline ++ [.writeMessage publication,.writeControlMessage disconnect,.stop,.loop [] false,
        .loop [] false,.loop [] false]) initial).state.wire =
      [.connect,.heartbeat 1,.message ⟨.control,1,disconnect⟩,.message ⟨.outbound,0,publication⟩] := by
  decide +kernel

end Worker

end Wisp
