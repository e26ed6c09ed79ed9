import Wisp.WorkerAcks

/-! When `sync` is a barrier. The loop finds the queues empty one after the other and
looks at the request last; what a caller wrote onto a queue already passed is not ahead
of the heartbeat that answers it. Short of that the heartbeat follows every message
written before the call, and its answer tells that the broker has processed them. -/
namespace Wisp

open Transition

def Sent (wire : List Frame) (serial : Nat) : Prop := ∃ write, .message write ∈ wire ∧ write.serial = serial

def Holds (places : List Write) (serial : Nat) : Prop := ∃ write ∈ places, write.serial = serial

/-- The messages written before the call stand ahead of the heartbeat. -/
def Ahead (wire : List Frame) (promised target : Nat) : Prop :=
  ∃ front rest, wire = front ++ .heartbeat target :: rest ∧ ∀ serial < promised, Sent front serial

theorem Sent.append {wire : List Frame} {serial : Nat} (sent : Sent wire serial) (more : List Frame) :
    Sent (wire ++ more) serial := by
  obtain ⟨write,member,same⟩ := sent
  exact ⟨write,List.mem_append_left _ member,same⟩

theorem Ahead.append {wire : List Frame} {promised target : Nat} (ahead : Ahead wire promised target)
    (more : List Frame) : Ahead (wire ++ more) promised target := by
  obtain ⟨front,rest,rfl,sent⟩ := ahead
  exact ⟨front,rest ++ more,by simp,sent⟩

/-- What leaves a place goes on the wire. -/
theorem Holds.moved {places places' batch : List Write} {wire : List Frame} {serial : Nat}
    (moves : ∀ write ∈ places, write ∈ places' ∨ write ∈ batch) (held : Sent wire serial ∨ Holds places serial) :
    Sent (wire ++ batch.map .message) serial ∨ Holds places' serial := by
  rcases held with sent | ⟨write,member,same⟩
  · exact .inl (sent.append _)
  · rcases moves write member with stays | goes
    · exact .inr ⟨write,stays,same⟩
    · exact .inl ⟨write,List.mem_append_right _ (mem_messages.mpr goes),same⟩

namespace Worker

/-- What arrived on the queues that the loop has found empty since. -/
def checked (s : Worker) : List Write :=
  match s.point with
  | .checkOutbound => s.controlQueue
  | .checkEncoded => s.controlQueue ++ s.outboundQueue
  | .look | .beat | .publish => s.controlQueue ++ s.outboundQueue ++ s.encodedQueue
  | _ => []

def unchecked (s : Worker) : List Write :=
  match s.point with
  | .checkOutbound => s.outboundQueue ++ s.encodedQueue
  | .checkEncoded => s.encodedQueue
  | .look | .beat | .publish => []
  | _ => s.places

/-- No send is refused, no frame is lost and the worker is not started again. -/
def Label.Lossless : Label → Prop
  | .loop pipe _ => ∀ verdict ∈ pipe, verdict = true
  | .lose _ | .loseReply _ | .start => False
  | _ => True

/-- Nothing written before the call waits where the loop will not look again before it
takes the request; no HEARTBEAT is written; the data held back fits. -/
def Orderly (s : Worker) : Label → Prop
  | .writeControlMessage env | .writeMessage env | .writeEncoded env => env.header.handlerKey ≠ Keys.heartbeat
  | .request =>
    match s.caller with
    | .called promised => ∀ write ∈ s.checked, promised ≤ write.serial
    | _ => True
  | .loop _ _ => (s.dataBacklog ++ s.point.batch).length ≤ dataBacklogLimit
  | _ => True

instance : ∀ label : Label, Decidable label.Lossless
  | .loop pipe _ => inferInstanceAs (Decidable (∀ verdict ∈ pipe, verdict = true))
  | .lose _ | .loseReply _ | .start => isFalse id
  | .writeControlMessage _ | .writeMessage _ | .writeEncoded _ | .process | .notify _ | .call | .request | .await _
  | .stop => isTrue trivial

instance (s : Worker) : ∀ label, Decidable (s.Orderly label)
  | .writeControlMessage _ | .writeMessage _ | .writeEncoded _ => inferInstanceAs (Decidable (_ ≠ Keys.heartbeat))
  | .request => by
    unfold Orderly
    exact match s.caller with
      | .called promised => inferInstanceAs (Decidable (∀ write ∈ s.checked, promised ≤ write.serial))
      | .idle | .waiting _ | .confirming _ _ => isTrue trivial
  | .loop _ _ => inferInstanceAs (Decidable (_ ≤ dataBacklogLimit))
  | .process | .notify _ | .lose _ | .loseReply _ | .call | .await _ | .stop | .start => isTrue trivial

theorem heard_of_lossless {s : Worker} {label : Label} (lossless : label.Lossless) (orderly : s.Orderly label) :
    s.Heard label := by
  cases label with
  | loop pipe ready =>
    intro _
    cases pipe with
    | nil => rfl
    | cons verdict rest => exact lossless verdict List.mem_cons_self
  | lose position => exact lossless.elim
  | writeControlMessage env | writeMessage env | writeEncoded env => exact orderly
  | process | notify | loseReply | call | request | await | stop | start => trivial

structure Ordered (s : Worker) : Prop where
  paired : Paired s
  lossless : s.wire = s.processed ++ s.flight
  flushed : s.controlBacklog = []
  bounded : s.controlQueue.length ≤ controlBacklogLimit
  cleared : s.point.Checking → s.dataBacklog = []
  beaten : s.point = .publish → ∃ front, s.wire = front ++ [.heartbeat s.heartbeatsSent]
  placed : ∀ serial < s.written.length, Sent s.wire serial ∨ Holds s.places serial
  called : ∀ promised, s.caller = .called promised → promised ≤ s.written.length
  awaited : ∀ promised, s.caller = .waiting promised → ∀ serial < promised,
    Sent s.wire serial ∨ Holds s.unchecked serial
  targeted : ∀ promised, s.caller = .waiting promised → s.syncTarget ≠ 0 → Ahead s.wire promised s.syncTarget
  confirming : ∀ promised target, s.caller = .confirming promised target → Ahead s.wire promised target

theorem initial_ordered : Ordered initial := by
  refine ⟨initial_paired,?_,?_,?_,?_,?_,?_,?_,?_,?_,?_⟩ <;> simp [initial]

section

variable {pipe : List Bool} (taken : ∀ verdict ∈ pipe, verdict = true)

include taken

theorem headD_taken : pipe.headD true = true := by
  cases pipe with
  | nil => rfl
  | cons verdict rest => exact taken verdict List.mem_cons_self

theorem sendBatch_taken (batch : List Write) : sendBatch pipe batch = batch := by
  induction batch generalizing pipe with
  | nil => rfl
  | cons write rest ih =>
    rw [sendBatch,if_pos (headD_taken taken),ih fun verdict member => taken verdict (List.mem_of_mem_tail member)]

theorem flushControl_taken (backlog : List Write) : flushControl pipe backlog = backlog.length := by
  induction backlog generalizing pipe with
  | nil => rfl
  | cons write rest ih =>
    rw [flushControl,if_pos (headD_taken taken),ih fun verdict member => taken verdict (List.mem_of_mem_tail member),
      List.length_cons]

end

theorem trim_fits {limit : Nat} {backlog : List Write} (fits : backlog.length ≤ limit) : trim limit backlog = backlog := by
  rw [trim,Nat.sub_eq_zero_of_le fits,List.drop_zero]

section

variable {s : Worker}

theorem unchecked_early (early : ¬s.point.Checking) : s.unchecked = s.places := by
  unfold unchecked
  split
  all_goals first
    | rfl
    | simp_all [Point.Checking]

theorem unchecked_places {write : Write} (member : write ∈ s.unchecked) : write ∈ s.places := by
  unfold unchecked at member
  split at member
  · exact mem_places.mpr (.inr ((List.mem_append.mp member).imp_right .inl))
  · exact mem_places.mpr (.inr (.inr (.inl member)))
  · cases member
  · cases member
  · cases member
  · exact member

theorem unchecked_mono {s' : Worker} (point : s'.point = s.point) (outbound : s.outboundQueue ⊆ s'.outboundQueue)
    (encoded : s.encodedQueue ⊆ s'.encodedQueue) (places : s.places ⊆ s'.places) : s.unchecked ⊆ s'.unchecked := by
  unfold unchecked
  rw [point]
  split
  · exact List.append_subset.mpr ⟨fun _ member => List.mem_append_left _ (outbound member),
      fun _ member => List.mem_append_right _ (encoded member)⟩
  · exact encoded
  · exact List.Subset.refl _
  · exact List.Subset.refl _
  · exact List.Subset.refl _
  · exact places

variable (ordered : Ordered s)

include ordered

/-- A step that loses no message of a place. -/
theorem Ordered.moves {s' : Worker} (paired : Paired s') (batch : List Write)
    (wire : s'.wire = s.wire ++ batch.map .message) (flight : s'.flight = s.flight ++ batch.map .message)
    (processed : s'.processed = s.processed)
    (same : s'.written = s.written ∧ s'.caller = s.caller ∧ s'.syncTarget = s.syncTarget)
    (places : ∀ write ∈ s.places, write ∈ s'.places ∨ write ∈ batch)
    (unchecked : ∀ write ∈ s.unchecked, write ∈ s'.unchecked ∨ write ∈ batch)
    (flushed : s'.controlBacklog = []) (bounded : s'.controlQueue.length ≤ s.controlQueue.length)
    (cleared : s'.point.Checking → s'.dataBacklog = []) (unbeaten : s'.point ≠ .publish) : Ordered s' := by
  obtain ⟨written,caller,target⟩ := same
  refine ⟨paired,?_,flushed,bounded.trans ordered.bounded,cleared,fun here => (unbeaten here).elim,?_,?_,?_,?_,?_⟩
  · rw [wire,flight,processed,ordered.lossless,List.append_assoc]
  · intro serial early
    rw [wire]
    exact Holds.moved places (ordered.placed serial (by rwa [written] at early))
  · rw [caller,written]
    exact ordered.called
  · intro promised waiting serial early
    rw [wire]
    exact Holds.moved unchecked (ordered.awaited promised (by rwa [caller] at waiting) serial early)
  · intro promised waiting published
    rw [wire,target]
    rw [caller] at waiting
    rw [target] at published
    exact (ordered.targeted promised waiting published).append _
  · intro promised target confirming
    rw [wire]
    rw [caller] at confirming
    exact (ordered.confirming promised target confirming).append _

/-- A step to where no queue counts as checked. -/
theorem Ordered.moves_early {s' : Worker} (paired : Paired s') (batch : List Write)
    (wire : s'.wire = s.wire ++ batch.map .message) (flight : s'.flight = s.flight ++ batch.map .message)
    (processed : s'.processed = s.processed)
    (same : s'.written = s.written ∧ s'.caller = s.caller ∧ s'.syncTarget = s.syncTarget)
    (places : ∀ write ∈ s.places, write ∈ s'.places ∨ write ∈ batch)
    (flushed : s'.controlBacklog = []) (bounded : s'.controlQueue.length ≤ s.controlQueue.length)
    (early : ¬s'.point.Checking) : Ordered s' := by
  refine ordered.moves paired batch wire flight processed same places (fun write member => ?_) flushed bounded
    (fun checking => (early checking).elim) ?_
  · rw [unchecked_early early]
    exact places write (unchecked_places member)
  · intro here
    rw [here] at early
    exact early trivial

theorem Ordered.turned {s' : Worker} (paired : Paired s') {point : Point} {isOnline syncRequested : Bool}
    (shape : s' = { s with point, isOnline, syncRequested }) (empty : s.point.batch = []) (turn : Turn s point) :
    Ordered s' := by
  subst shape
  have places : ∀ write ∈ s.places, write ∈ ({ s with point, isOnline, syncRequested } : Worker).places ∨ write ∈ [] := by
    intro write member
    left
    simpa [mem_places,empty,turn.empty] using member
  have passed (cleared : s.dataBacklog = []) (unbeaten : point ≠ .publish) (narrows : ∀ write ∈ s.unchecked,
      write ∈ ({ s with point, isOnline, syncRequested } : Worker).unchecked) :
      Ordered { s with point, isOnline, syncRequested } :=
    ordered.moves paired [] (by simp) (by simp) rfl ⟨rfl,rfl,rfl⟩ places (fun write member => .inl (narrows write member))
      ordered.flushed le_rfl (fun _ => cleared) unbeaten
  cases turn with
  | away early none ended =>
    exact ordered.moves_early paired [] (by simp) (by simp) rfl ⟨rfl,rfl,rfl⟩ places ordered.flushed le_rfl early
  | control here flushed cleared drained =>
    refine passed cleared (by simp) fun write member => ?_
    have member := mem_places.mp (unchecked_places member)
    simpa [unchecked,flushed,cleared,drained,here,Point.batch] using member
  | outbound here drained =>
    refine passed (ordered.cleared (by rw [here]; trivial)) (by simp) fun write member => ?_
    simpa [unchecked,here,drained] using member
  | encoded here drained =>
    refine passed (ordered.cleared (by rw [here]; trivial)) (by simp) fun write member => ?_
    simp [unchecked,here,drained] at member
  | look here requested =>
    refine passed (ordered.cleared (by rw [here]; trivial)) (by simp) fun write member => ?_
    simp [unchecked,here] at member

section

variable {pipe : List Bool} (taken : ∀ verdict ∈ pipe, verdict = true)

include taken

theorem Ordered.drained {limit : Nat} {point : Point} (fits : s.controlQueue.length ≤ limit) (empty : s.point.batch = [])
    (early : ¬point.Checking) (paired : Paired ((s.drainControl limit pipe).goto point)) :
    Ordered ((s.drainControl limit pipe).goto point) := by
  have whole : trim limit (s.controlBacklog ++ s.controlQueue) = s.controlQueue := by
    rw [ordered.flushed,List.nil_append,trim_fits fits]
  have all : flushControl pipe s.controlQueue = s.controlQueue.length := flushControl_taken taken _
  refine ordered.moves_early paired s.controlQueue ?_ ?_ rfl ⟨rfl,rfl,rfl⟩ (fun write member => ?_) ?_ (Nat.zero_le _) early
  · simp [goto,drainControl,put,whole,all]
  · simp [goto,drainControl,put,whole,all]
  · have member := mem_places.mp member
    simp only [ordered.flushed,empty,List.not_mem_nil,or_false,false_or] at member
    rcases member with control | outbound | encoded | waits
    · exact .inr control
    · exact .inl (mem_places.mpr (.inr (.inl outbound)))
    · exact .inl (mem_places.mpr (.inr (.inr (.inl encoded))))
    · exact .inl (mem_places.mpr (.inr (.inr (.inr (.inr (.inl waits))))))
  · simp [goto,drainControl,whole,all]

/-- The heartbeat behind everything the checks have passed, or one the clock asks for. -/
theorem Ordered.heartbeat {point : Point} (here : s.point = .beat ∧ point = .publish ∨ s.point = .keepAlive ∧ point = .expire) :
    Ordered ((s.sendHeartbeat pipe).goto point) := by
  have paired := ordered.paired.beaten (headD_taken taken) here
  have wire : ((s.sendHeartbeat pipe).goto point).wire = s.wire ++ [.heartbeat (s.heartbeatsSent + 1)] := by
    simp only [goto,sendHeartbeat,put,headD_taken taken,↓reduceIte]
  have places : ((s.sendHeartbeat pipe).goto point).places = s.places := by
    rcases here with ⟨here,rfl⟩ | ⟨here,rfl⟩ <;> simp [goto,sendHeartbeat,put,Worker.places,here,Point.batch]
  have unchecked : ((s.sendHeartbeat pipe).goto point).unchecked = s.unchecked := by
    rcases here with ⟨here,rfl⟩ | ⟨here,rfl⟩
    · simp [goto,sendHeartbeat,put,Worker.unchecked,here]
    · rw [unchecked_early (by simp [goto,Point.Checking]),unchecked_early (by simp [here,Point.Checking]),places]
  refine ⟨paired,?_,ordered.flushed,ordered.bounded,?_,fun _ => ⟨s.wire,wire⟩,?_,ordered.called,?_,?_,?_⟩
  · rw [wire,ordered.lossless]
    simp only [goto,sendHeartbeat,put,headD_taken taken,↓reduceIte,List.append_assoc]
  · intro checking
    rcases here with ⟨here,rfl⟩ | ⟨here,rfl⟩
    · exact ordered.cleared (by rw [here]; trivial)
    · exact checking.elim
  · intro serial early
    rw [wire,places]
    exact (ordered.placed serial early).imp_left (Sent.append · _)
  · intro promised waiting serial early
    rw [wire,unchecked]
    exact (ordered.awaited promised waiting serial early).imp_left (Sent.append · _)
  · intro promised waiting published
    rw [wire]
    exact (ordered.targeted promised waiting published).append _
  · intro promised target confirming
    rw [wire]
    exact (ordered.confirming promised target confirming).append _

/-- A batch goes out whole. -/
theorem Ordered.sent {batch : List Write} {s' : Worker} (paired : Paired s')
    (places : ∀ write ∈ s.places, write ∈ s'.places ∨ write ∈ batch) (early : ¬s'.point.Checking)
    (same : s' = { s.putBatch pipe batch with
      outboundQueue := s'.outboundQueue, encodedQueue := s'.encodedQueue, dataBacklog := s'.dataBacklog,
      point := s'.point }) : Ordered s' := by
  refine ordered.moves_early paired batch ?_ ?_ (by rw [same]; rfl) ?_ places (by rw [same]; exact ordered.flushed)
    (by rw [same]; exact le_rfl) early
  · rw [same]
    simp only [putBatch,put,sendBatch_taken taken]
  · rw [same]
    simp only [putBatch,put,sendBatch_taken taken]
  · rw [same]
    exact ⟨rfl,rfl,rfl⟩

theorem Ordered.advance {s' : Worker} (advance : Advance pipe s s')
    (fits : (s.dataBacklog ++ s.point.batch).length ≤ dataBacklogLimit) : Ordered s' := by
  have paired := ordered.paired.advance advance fun _ => headD_taken taken
  cases advance with
  | turns isOnline syncRequested lowers empty kept turn => exact ordered.turned paired rfl empty turn
  | receives here arrived =>
    refine ordered.moves_early paired [] (by simp) (by simp) rfl ⟨rfl,rfl,rfl⟩ (fun write member => .inl ?_)
      ordered.flushed le_rfl ?_
    · split <;> simpa [mem_places,here,Point.batch] using member
    · split <;> exact id
  | @accepts reply here =>
    have shape : ∃ acksReceived received, s.accept reply = { s with acksReceived, received } := by
      unfold accept
      split_ifs
      · exact ⟨_,_,rfl⟩
      · exact ⟨_,_,rfl⟩
      · exact ⟨_,_,rfl⟩
    obtain ⟨acksReceived,received,shape⟩ := shape
    rw [shape] at paired ⊢
    refine ordered.moves_early paired [] (by simp [goto]) (by simp [goto]) rfl ⟨rfl,rfl,rfl⟩
      (fun write member => .inl ?_) ordered.flushed le_rfl id
    simpa [goto,mem_places,here,Point.batch] using member
  | drains here => exact ordered.drained taken ordered.bounded (by rw [here]; rfl) id paired
  | ends here stopped =>
    refine ordered.drained taken ?_ (by rw [here]; rfl) id paired
    rw [List.length_append]
    exact Nat.le_add_left _ _
  | takes here online =>
    refine ordered.moves_early paired [] (by simp) (by simp) rfl ⟨rfl,rfl,rfl⟩ (fun write member => .inl ?_)
      ordered.flushed le_rfl id
    simp only [mem_places,here,Point.batch] at member ⊢
    grind
  | sends here cleared flushed drained =>
    refine ordered.sent taken paired (fun write member => ?_) id rfl
    simp only [mem_places,goto,putBatch,put,Point.batch,here] at member ⊢
    grind
  | @holds batch here =>
    have whole : trim dataBacklogLimit (s.dataBacklog ++ batch) = s.dataBacklog ++ batch :=
      trim_fits (by rw [here] at fits; exact fits)
    rw [hold,whole] at paired ⊢
    refine ordered.moves_early paired [] (by simp [goto]) (by simp [goto]) rfl ⟨rfl,rfl,rfl⟩
      (fun write member => .inl ?_) ordered.flushed le_rfl id
    have listed := mem_places.mp member
    rw [here] at listed
    refine mem_places.mpr ?_
    simpa [goto,Point.batch,or_assoc] using listed
  | releases here flushed drained =>
    refine ordered.sent taken paired (fun write member => ?_) id rfl
    simp only [mem_places,putBatch,put,Point.batch,here] at member ⊢
    grind
  | forwards here =>
    refine ordered.sent taken paired (fun write member => ?_) id rfl
    simp only [mem_places,putBatch,put,Point.batch,here] at member ⊢
    grind
  | beats here => exact ordered.heartbeat taken here
  | publishes here =>
    have places : ({ s with syncTarget := s.heartbeatsSent, point := .keepAlive } : Worker).places = s.places := by
      simp [places,here,Point.batch]
    refine ⟨paired,ordered.lossless,ordered.flushed,ordered.bounded,fun checking => checking.elim,by rintro ⟨⟩,?_,
      ordered.called,?_,fun promised waiting _ => ?_,ordered.confirming⟩
    · rw [places]
      exact ordered.placed
    · intro promised waiting serial early
      rw [unchecked_early (by exact id),places]
      refine (ordered.awaited promised waiting serial early).imp_right ?_
      rintro ⟨write,member,same⟩
      exact ⟨write,unchecked_places member,same⟩
    · -- nothing is left to look at, so all that was promised is ahead of the last frame
      obtain ⟨front,wire⟩ := ordered.beaten here
      refine ⟨front,[],wire,fun serial early => ?_⟩
      rcases ordered.awaited promised waiting serial early with ⟨write,member,same⟩ | ⟨write,member,same⟩
      · rw [wire,List.mem_append,List.mem_singleton] at member
        exact ⟨write,member.resolve_right (by rintro ⟨⟩),same⟩
      · simp [unchecked,here] at member

end

/-- Nothing but the queues, the connection or the call changes. -/
theorem Ordered.same {s' : Worker} (paired : Paired s') (lossless : s'.wire = s'.processed ++ s'.flight)
    (queues : s'.controlQueue = s.controlQueue ∧ s'.outboundQueue = s.outboundQueue ∧ s'.encodedQueue = s.encodedQueue)
    (loop : s'.point = s.point ∧ s'.controlBacklog = s.controlBacklog ∧ s'.dataBacklog = s.dataBacklog ∧
      s'.wire = s.wire ∧ s'.heartbeatsSent = s.heartbeatsSent ∧ s'.written = s.written)
    (called : ∀ promised, s'.caller = .called promised → promised ≤ s.written.length)
    (awaited : ∀ promised, s'.caller = .waiting promised → ∀ serial < promised,
      Sent s.wire serial ∨ Holds s.unchecked serial)
    (targeted : ∀ promised, s'.caller = .waiting promised → s'.syncTarget ≠ 0 → Ahead s.wire promised s'.syncTarget)
    (confirming : ∀ promised target, s'.caller = .confirming promised target → Ahead s.wire promised target) :
    Ordered s' := by
  obtain ⟨control,outbound,encoded⟩ := queues
  obtain ⟨point,backlog,data,wire,heartbeats,written⟩ := loop
  have places : s'.places = s.places := by
    simp only [Worker.places,control,outbound,encoded,point,backlog,data]
  have unchecked : s'.unchecked = s.unchecked := by
    simp only [Worker.unchecked,outbound,encoded,point,places]
  refine ⟨paired,lossless,?_,?_,?_,?_,?_,?_,?_,?_,?_⟩
  · rw [backlog]; exact ordered.flushed
  · rw [control]; exact ordered.bounded
  · rw [point,data]; exact ordered.cleared
  · rw [point,wire,heartbeats]; exact ordered.beaten
  · rw [written,wire,places]; exact ordered.placed
  · rw [written]; exact called
  · rw [wire,unchecked]; exact awaited
  · rw [wire]; exact targeted
  · rw [wire]; exact confirming

/-- The call returns. -/
theorem Ordered.returned (syncRequested : Bool) (paired : Paired { s with syncRequested, caller := .idle }) :
    Ordered { s with syncRequested, caller := .idle } := by
  refine ordered.same paired ordered.lossless ⟨rfl,rfl,rfl⟩ ⟨rfl,rfl,rfl,rfl,rfl,rfl⟩ ?_ ?_ ?_ ?_
  all_goals simp

/-- A write gets the next number and joins the places. -/
theorem Ordered.enqueued {lane : Lane} {queue : List Write} {limit : Nat} {env : Envelope}
    {store : List Write → Worker} (hasEncoded : Bool) (kept : ∃ controlQueue outboundQueue encodedQueue,
      store (queue ++ [⟨lane,s.written.length,env⟩]) = { s with hasEncoded, controlQueue, outboundQueue, encodedQueue } ∧
        s.outboundQueue ⊆ outboundQueue ∧ s.encodedQueue ⊆ encodedQueue)
    (flagged : Ordered { s with hasEncoded })
    (paired : Paired ({ s with hasEncoded }.enqueue lane queue limit env store).state)
    (bounded : queue.length < limit → (store (queue ++ [⟨lane,s.written.length,env⟩])).controlQueue.length ≤
      controlBacklogLimit)
    (places : ∀ write, write ∈ s.places ∨ write = ⟨lane,s.written.length,env⟩ →
      write ∈ (store (queue ++ [⟨lane,s.written.length,env⟩])).places) :
    Ordered ({ s with hasEncoded }.enqueue lane queue limit env store).state := by
  unfold enqueue at paired ⊢
  dsimp only at paired ⊢
  split
  next room =>
    rw [if_pos room] at paired
    have bounded := bounded room
    obtain ⟨controlQueue,outboundQueue,encodedQueue,shape,outbound,encoded⟩ := kept
    rw [shape] at paired bounded places ⊢
    refine ⟨paired,ordered.lossless,ordered.flushed,bounded,ordered.cleared,ordered.beaten,?_,?_,?_,ordered.targeted,
      ordered.confirming⟩
    · intro serial early
      rw [List.length_append,List.length_singleton] at early
      rcases Nat.lt_succ_iff_lt_or_eq.mp early with old | rfl
      · refine (ordered.placed serial old).imp_right fun ⟨write,member,same⟩ => ?_
        exact ⟨write,places write (.inl member),same⟩
      · exact .inr ⟨_,places _ (.inr rfl),rfl⟩
    · intro promised calling
      have := ordered.called promised calling
      rw [List.length_append]
      omega
    · intro promised waiting serial early
      refine (ordered.awaited promised waiting serial early).imp_right fun ⟨write,member,same⟩ => ?_
      refine ⟨write,unchecked_mono (s := s) ?_ ?_ ?_ ?_ member,same⟩
      · rfl
      · exact outbound
      · exact encoded
      · exact fun write member => places write (.inl member)
  · exact flagged

/-- What was promised at the call has not gone past the loop's eyes. -/
theorem Ordered.promised {promised : Nat} (early : promised ≤ s.written.length)
    (orderly : ∀ write ∈ s.checked, promised ≤ write.serial) :
    ∀ serial < promised, Sent s.wire serial ∨ Holds s.unchecked serial := by
  intro serial below
  refine (ordered.placed serial (by omega)).imp_right fun ⟨write,member,same⟩ => ⟨write,?_,same⟩
  by_contra missing
  have late : promised ≤ write.serial := by
    refine orderly write ?_
    have member := mem_places.mp member
    have cleared := ordered.cleared
    revert missing member cleared
    cases point : s.point with
    | checkOutbound | checkEncoded | look | beat | publish =>
      intro missing member cleared
      have none := cleared trivial
      simp only [Worker.unchecked,checked,point,ordered.flushed,none,Point.batch,List.mem_append] at missing member ⊢
      simp only [List.not_mem_nil,or_false] at missing member ⊢
      grind
    | _ =>
      intro missing member _
      refine (missing ?_).elim
      rw [unchecked_early (by rw [point]; exact id)]
      rw [mem_places,point]
      exact member
  omega

theorem Ordered.step (label : Label) (lossless : label.Lossless) (orderly : s.Orderly label) :
    Ordered (step label s).state := by
  have paired := ordered.paired.step label (heard_of_lossless lossless orderly)
  have whole := ordered.lossless
  cases label with
  | writeControlMessage env =>
    refine ordered.enqueued s.hasEncoded ⟨_,_,_,rfl,List.Subset.refl _,List.Subset.refl _⟩ ordered paired (fun room => ?_)
      fun write => mem_places_control.mpr
    rw [List.length_append,List.length_singleton]
    exact room
  | writeMessage env =>
    exact ordered.enqueued s.hasEncoded ⟨_,_,_,rfl,List.subset_append_left _ _,List.Subset.refl _⟩ ordered paired
      (fun _ => ordered.bounded) fun write => mem_places_outbound.mpr
  | writeEncoded env =>
    have flagged : Ordered { s with hasEncoded := true } :=
      ordered.same (ordered.paired.same rfl rfl ⟨rfl,rfl,rfl,rfl,rfl,rfl⟩) whole ⟨rfl,rfl,rfl⟩ ⟨rfl,rfl,rfl,rfl,rfl,rfl⟩
        ordered.called ordered.awaited ordered.targeted ordered.confirming
    exact ordered.enqueued true ⟨_,_,_,rfl,List.Subset.refl _,List.subset_append_left _ _⟩ flagged paired
      (fun _ => ordered.bounded) fun write => mem_places_encoded.mpr
  | loop pipe ready => exact ordered.advance lossless (runLoop_advance pipe ready s) orderly
  | process =>
    simp only [Worker.step,process] at paired ⊢
    split at paired
    · exact ordered
    next frame rest flight =>
      refine ordered.same paired ?_ ⟨rfl,rfl,rfl⟩ ⟨rfl,rfl,rfl,rfl,rfl,rfl⟩ ordered.called ordered.awaited
        ordered.targeted ordered.confirming
      rw [whole,flight]
      simp
  | notify reply =>
    simp only [Worker.step] at paired ⊢
    split at paired
    next ack => rwa [if_pos ack]
    next other =>
      rw [if_neg other]
      exact ordered.same paired whole ⟨rfl,rfl,rfl⟩ ⟨rfl,rfl,rfl,rfl,rfl,rfl⟩ ordered.called ordered.awaited
        ordered.targeted ordered.confirming
  | lose position => exact lossless.elim
  | loseReply position => exact lossless.elim
  | call =>
    simp only [Worker.step] at paired ⊢
    split at paired
    next idle =>
      rw [if_pos idle]
      refine ordered.same paired whole ⟨rfl,rfl,rfl⟩ ⟨rfl,rfl,rfl,rfl,rfl,rfl⟩ ?_ (by simp) (by simp) (by simp)
      intro promised calling
      cases calling
      exact le_rfl
    next busy => rwa [if_neg busy]
  | request =>
    simp only [Worker.step,requestSync] at paired ⊢
    split at paired
    next promised calling =>
      simp only [Orderly,calling] at orderly
      split
      · rw [if_pos ‹_›] at paired
        refine ordered.same paired whole ⟨rfl,rfl,rfl⟩ ⟨rfl,rfl,rfl,rfl,rfl,rfl⟩ (by simp) ?_
          (fun _ _ published => (published rfl).elim) (by simp)
        intro other waiting
        cases waiting
        exact ordered.promised (ordered.called promised calling) orderly
      · rw [if_neg ‹_›] at paired
        exact ordered.returned _ paired
    next other => exact ordered
  | await expired =>
    simp only [Worker.step,awaitSync] at paired ⊢
    split at paired
    next promised waiting =>
      split_ifs at paired ⊢ with published expired
      · refine ordered.same paired whole ⟨rfl,rfl,rfl⟩ ⟨rfl,rfl,rfl,rfl,rfl,rfl⟩ (by simp) (by simp) (by simp) ?_
        intro other target confirming
        cases confirming
        exact ordered.targeted promised waiting published
      · exact ordered.returned _ paired
      · exact ordered
    next promised target confirming =>
      split_ifs at paired ⊢ with answered expired
      · exact ordered.returned _ paired
      · exact ordered.returned _ paired
      · exact ordered
    · exact ordered
  | stop =>
    exact ordered.same paired whole ⟨rfl,rfl,rfl⟩ ⟨rfl,rfl,rfl,rfl,rfl,rfl⟩ ordered.called ordered.awaited
      ordered.targeted ordered.confirming
  | start => exact lossless.elim

/-- An answer to the heartbeat tells that everything ahead of it was processed. -/
theorem Ordered.processed {promised target : Nat} (ahead : Ahead s.wire promised target)
    (answered : target ≤ s.acksReceived) : ∃ front rest, s.wire = front ++ .heartbeat target :: rest ∧
      front ++ [.heartbeat target] <+: s.processed ∧ ∀ serial < promised, Sent front serial := by
  obtain ⟨front,rest,wire,sent⟩ := ahead
  refine ⟨front,rest,wire,?_,sent⟩
  have numbered := ordered.paired.numbered
  rw [← ordered.lossless,wire,beats_append,beats_heartbeat] at numbered
  obtain ⟨count,-,first,later⟩ := List.range'_eq_append_iff.mp numbered.symm
  have number : target = 1 + count := by
    have := (List.range'_eq_cons_iff.mp later.symm).1
    omega
  have processed : s.processed <+: s.wire := ⟨s.flight,ordered.lossless.symm⟩
  have heartbeat : front ++ [.heartbeat target] <+: s.wire := ⟨rest,by rw [wire]; simp⟩
  rcases List.prefix_or_prefix_of_prefix heartbeat processed with done | short
  · exact done
  · rcases List.prefix_concat_iff.mp short with same | ⟨more,before⟩
    · rw [same]
    · -- then fewer heartbeats were processed than were answered
      have fewer := congrArg (fun frames => (beats frames).length) before
      simp only [beats_append,List.length_append,first,List.length_range'] at fewer
      have := ordered.paired.acked
      omega

end

/-- What was written before the call is ahead of the heartbeat, and the broker is past it. -/
def Barrier (s : Worker) (promised target : Nat) : Prop :=
  ∃ front rest, s.wire = front ++ .heartbeat target :: rest ∧ front ++ [.heartbeat target] <+: s.processed ∧
    ∀ serial < promised, Sent front serial

/-- In every run that loses nothing and whose steps are orderly, a call of `sync` that
returns true was a barrier for the messages written before it began. -/
theorem sync_is_barrier (schedule : List Label)
    (orderly : Always step (fun s label => label.Lossless ∧ s.Orderly label) schedule initial) (label : Label)
    (promised target : Nat)
    (returned : .returned promised target true ∈ (step label (run step schedule initial).state).events) :
    Barrier (run step schedule initial).state promised target := by
  have ordered := run_invariant step Ordered (fun s label met ordered => ordered.step label met.1 met.2) schedule initial
    orderly initial_ordered
  generalize (run step schedule initial).state = s at ordered returned ⊢
  cases label with
  | await expired =>
    simp only [step,awaitSync] at returned
    split at returned
    · split_ifs at returned <;> simp at returned
    next promised' target' confirming =>
      split_ifs at returned with answered
      · simp only [List.mem_singleton,Event.returned.injEq,and_true] at returned
        obtain ⟨rfl,rfl⟩ := returned
        exact ordered.processed (ordered.confirming promised target confirming) answered
      · simp at returned
      · simp at returned
    · simp at returned
  | request =>
    simp only [step,requestSync] at returned
    split at returned
    · split at returned <;> simp at returned
    · simp at returned
  | writeControlMessage env | writeMessage env | writeEncoded env =>
    simp only [step,writeControlMessage,writeMessage,writeEncoded,enqueue] at returned
    split at returned <;> simp at returned
  | loop | process | notify | lose | loseReply | call | stop | start => simp [step] at returned

/-- The broker is at the heartbeat, and the loop takes up its answer. -/
def takeAnswer : List Label :=
  [.process,.loop [] false,.loop [] false,.loop [] false,.loop [] true,.loop [] true]

/-- A message, and a call that finds it on its queue before the checks. -/
def syncInTime : List Label :=
  comeOnline ++ [.writeMessage publication,.call,.request] ++ List.replicate 11 (.loop [] false) ++
    [.await false,.process] ++ takeAnswer

theorem sync_is_barrier_in_time : Barrier (run step syncInTime initial).state 1 2 :=
  sync_is_barrier syncInTime (by decide +kernel) (.await false) 1 2 (by decide +kernel)

/-- A SUBSCRIBE behind the look at its queue, and a call ahead of the look at the request. -/
def syncLate : List Label :=
  comeOnline ++ List.replicate 5 (.loop [] false) ++
    [.writeControlMessage (Wire.makeControl Keys.subscribe (str "c") (str "t")),.call,.request] ++
    List.replicate 5 (.loop [] false) ++ [.await false] ++ takeAnswer

theorem sync_returns_ahead_of_write :
    Always step (fun _ label => label.Lossless) syncLate initial ∧
      .returned 1 2 true ∈ (step (.await false) (run step syncLate initial).state).events ∧
      ¬Barrier (run step syncLate initial).state 1 2 := by
  refine ⟨by decide +kernel,by decide +kernel,?_⟩
  rintro ⟨front,rest,wire,-,sent⟩
  obtain ⟨write,member,-⟩ := sent 0 (by decide)
  have listed : .message write ∈ (run step syncLate initial).state.wire := by
    rw [wire]
    exact List.mem_append_left _ member
  have whole : (run step syncLate initial).state.wire = [.connect,.heartbeat 1,.heartbeat 2] := by decide +kernel
  simp [whole] at listed

end Worker

end Wisp
