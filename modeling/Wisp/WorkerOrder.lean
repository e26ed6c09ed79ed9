import Wisp.Worker

/-! The order of what a worker sends. Each lane keeps the order of its writes, whatever
the pipe refuses and the backlogs drop, and a message of the outbound lane is put on the
wire only when no control message is waiting anywhere. -/
namespace Wisp

open Transition

/-- The messages of one lane among some frames. -/
def carried (lane : Lane) (frames : List Frame) : List Write :=
  frames.filterMap fun
    | .message write => if write.lane = lane then some write else none
    | _ => none

@[simp] theorem carried_append (lane : Lane) (first later : List Frame) :
    carried lane (first ++ later) = carried lane first ++ carried lane later :=
  List.filterMap_append

theorem mem_carried {lane : Lane} {frames : List Frame} {write : Write} :
    write ∈ carried lane frames ↔ .message write ∈ frames ∧ write.lane = lane := by
  simp only [carried,List.mem_filterMap]
  constructor
  · rintro ⟨frame,member,found⟩
    cases frame with
    | message other =>
      simp only [Option.ite_none_right_eq_some,Option.some.injEq] at found
      obtain ⟨same,rfl⟩ := found
      exact ⟨member,same⟩
    | connect | heartbeat => cases found
  · rintro ⟨member,same⟩
    exact ⟨_,member,if_pos same⟩

theorem carried_none {lane : Lane} {frames : List Frame} (none : ∀ write, .message write ∈ frames → write.lane ≠ lane) :
    carried lane frames = [] :=
  List.eq_nil_iff_forall_not_mem.mpr fun write member => none write (mem_carried.mp member).1 (mem_carried.mp member).2

theorem carried_messages {lane : Lane} {batch : List Write} (same : ∀ write ∈ batch, write.lane = lane) :
    carried lane (batch.map .message) = batch := by
  induction batch with
  | nil => rfl
  | cons write rest ih =>
    have here : write.lane = lane := same write List.mem_cons_self
    have later := ih fun other member => same other (List.mem_cons_of_mem _ member)
    simp only [carried,List.map_cons,List.filterMap_cons,here,↓reduceIte] at later ⊢
    rw [later]

/-- A control message behind one of the outbound lane was written after it. -/
def Follows : Frame → Frame → Prop
  | .message first, .message later => first.lane = .outbound → later.lane = .control → first.serial < later.serial
  | _, _ => True

namespace Worker

/-- What a lane still holds, oldest first. -/
def waiting (s : Worker) : Lane → List Write
  | .control => s.controlBacklog ++ s.controlQueue
  | .outbound => s.dataBacklog ++ s.point.batch ++ s.outboundQueue
  | .encoded => s.encodedQueue

structure InOrder (s : Worker) : Prop where
  numbered : s.written.Pairwise fun first later => first.serial < later.serial
  counted : ∀ write ∈ s.written, write.serial < s.written.length
  lined : ∀ lane, (carried lane s.wire ++ s.waiting lane).Sublist (s.written.filter (·.lane = lane))
  follows : s.wire.Pairwise Follows
  behind : ∀ data, .message data ∈ s.wire → data.lane = .outbound → ∀ control ∈ s.waiting .control,
    data.serial < control.serial

theorem initial_inOrder : InOrder initial := by
  refine ⟨List.Pairwise.nil,nofun,fun lane => ?_,by simp [initial],by simp [initial]⟩
  cases lane <;> exact List.Sublist.refl _

/-- A step that sends from one lane at most, and nothing of the outbound lane past a
waiting control message. -/
structure Shift (s s' : Worker) (lane : Lane) (frames : List Frame) : Prop where
  wire : s'.wire = s.wire ++ frames
  written : s'.written = s.written
  single : ∀ write, .message write ∈ frames → write ∈ s.waiting lane
  shrinks : ∀ other, (carried other frames ++ s'.waiting other).Sublist (s.waiting other)
  clear : lane = .outbound → (∃ write, .message write ∈ frames) → s'.waiting .control = []

section

variable {s : Worker}

theorem Shift.quiet {s' : Worker} (frames : List Frame) (wire : s'.wire = s.wire ++ frames)
    (silent : ∀ write, .message write ∉ frames) (written : s'.written = s.written)
    (shrinks : ∀ lane, (s'.waiting lane).Sublist (s.waiting lane)) : Shift s s' .control frames := by
  refine ⟨wire,written,fun write member => (silent write member).elim,fun lane => ?_,nofun⟩
  rw [carried_none fun write member => (silent write member).elim]
  exact shrinks lane

theorem Shift.rests {s' : Worker} (wire : s'.wire = s.wire) (written : s'.written = s.written)
    (shrinks : ∀ lane, (s'.waiting lane).Sublist (s.waiting lane)) : Shift s s' .control [] :=
  .quiet [] (by rw [wire,List.append_nil]) (fun _ => List.not_mem_nil) written shrinks

variable (ordered : InOrder s)

include ordered

theorem InOrder.lane_waiting {lane : Lane} {write : Write} (member : write ∈ s.waiting lane) : write.lane = lane := by
  have listed := (ordered.lined lane).subset (List.mem_append_right _ member)
  simpa using (List.mem_filter.mp listed).2

theorem InOrder.shift {s' : Worker} {lane : Lane} {frames : List Frame} (shift : Shift s s' lane frames) :
    InOrder s' := by
  obtain ⟨wire,written,single,shrinks,clear⟩ := shift
  have left {control : Write} (member : control ∈ s'.waiting .control) : control ∈ s.waiting .control :=
    (shrinks .control).subset (List.mem_append_right _ member)
  refine ⟨?_,?_,fun other => ?_,?_,?_⟩
  · rw [written]; exact ordered.numbered
  · rw [written]; exact ordered.counted
  · rw [wire,written,carried_append,List.append_assoc]
    exact ((List.Sublist.refl _).append (shrinks other)).trans (ordered.lined other)
  · rw [wire,List.pairwise_append]
    refine ⟨ordered.follows,List.pairwise_iff_forall_sublist.mpr fun {first later} pair => ?_,?_⟩
    · -- both come from one lane
      cases first <;> cases later <;> try trivial
      next data control =>
        intro outbound controlled
        have first := ordered.lane_waiting (single data (pair.subset (by simp)))
        have second := ordered.lane_waiting (single control (pair.subset (by simp)))
        rw [outbound] at first
        rw [controlled,← first] at second
        cases second
    · intro first old later new
      cases first <;> cases later <;> try trivial
      next data control =>
        intro outbound controlled
        refine ordered.behind data old outbound control ?_
        have same := ordered.lane_waiting (single control new)
        rw [controlled] at same
        rw [same]
        exact single control new
  · intro data member outbound control waits
    rw [wire,List.mem_append] at member
    rcases member with old | new
    · exact ordered.behind data old outbound control (left waits)
    · have same := ordered.lane_waiting (single data new)
      rw [outbound] at same
      rw [clear same.symm ⟨data,new⟩] at waits
      cases waits

theorem InOrder.sends {s' : Worker} (lane : Lane) {batch : List Write} (wire : s'.wire = s.wire ++ batch.map .message)
    (written : s'.written = s.written) (own : (batch ++ s'.waiting lane).Sublist (s.waiting lane))
    (others : ∀ other, other ≠ lane → s'.waiting other = s.waiting other)
    (clear : lane = .outbound → s'.waiting .control = []) : Shift s s' lane (batch.map .message) := by
  have held {write : Write} (member : write ∈ batch) : write ∈ s.waiting lane :=
    own.subset (List.mem_append_left _ member)
  refine ⟨wire,written,fun write member => held (mem_messages.mp member),fun other => ?_,fun same _ => clear same⟩
  by_cases same : other = lane
  · subst same
    rw [carried_messages fun write member => ordered.lane_waiting (held member)]
    exact own
  · rw [carried_none,others other same,List.nil_append]
    intro write member
    rw [ordered.lane_waiting (held (mem_messages.mp member))]
    exact fun equal => same equal.symm

theorem InOrder.drains {pipe : List Bool} {limit : Nat} {point : Point} (back : s.point.batch = [])
    (fresh : point.batch = []) :
    ∃ lane frames, Shift s ((s.drainControl limit pipe).goto point) lane frames := by
  refine ⟨.control,_,ordered.sends .control rfl rfl ?_ ?_ nofun⟩
  · simp only [waiting,goto,drainControl,put,List.append_nil,List.take_append_drop]
    exact trim_sublist _ _
  · intro other different
    cases other with
    | control => exact (different rfl).elim
    | outbound => simp [waiting,goto,drainControl,put,back,fresh]
    | encoded => rfl

theorem InOrder.advance {pipe : List Bool} {s' : Worker} (advance : Advance pipe s s') :
    ∃ lane frames, Shift s s' lane frames := by
  cases advance with
  | turns isOnline syncRequested lowers empty kept turn =>
    refine ⟨.control,[],Shift.rests rfl rfl fun lane => ?_⟩
    cases lane <;> simp [waiting,empty,turn.empty]
  | receives here arrived =>
    refine ⟨.control,[],Shift.rests rfl rfl fun lane => ?_⟩
    cases lane with
    | control | encoded => exact List.Sublist.refl _
    | outbound => dsimp only [waiting]; split <;> simp [here,Point.batch]
  | accepts here =>
    refine ⟨.control,[],Shift.rests ?_ ?_ fun lane => ?_⟩
    · unfold accept
      split_ifs <;> rfl
    · unfold accept
      split_ifs <;> rfl
    · unfold accept
      split_ifs <;> cases lane <;> simp [goto,waiting,here,Point.batch]
  | drains here => exact ordered.drains (by rw [here]; rfl) rfl
  | ends here stopped => exact ordered.drains (by rw [here]; rfl) rfl
  | takes here online =>
    refine ⟨.control,[],Shift.rests rfl rfl fun lane => ?_⟩
    cases lane <;> simp [waiting,here,Point.batch]
  | @sends batch here cleared flushed drained =>
    refine ⟨.outbound,_,ordered.sends .outbound rfl rfl ?_ ?_ ?_⟩
    · simp only [waiting,goto,putBatch,put,cleared,here,Point.batch,List.nil_append]
      exact (sendBatch_sublist pipe batch).append (List.Sublist.refl _)
    · intro other different
      cases other with
      | control | encoded => rfl
      | outbound => exact (different rfl).elim
    · intro _
      simp [waiting,goto,putBatch,put,flushed,drained]
  | @holds batch here =>
    rw [hold,goto]
    refine ⟨.control,[],Shift.rests rfl rfl fun lane => ?_⟩
    cases lane with
    | control | encoded => simp only [waiting,List.Sublist.refl]
    | outbound =>
      simp only [waiting,here,Point.batch,List.append_nil]
      exact (trim_sublist _ _).append (List.Sublist.refl _)
  | releases here flushed drained =>
    refine ⟨.outbound,_,ordered.sends .outbound rfl rfl ?_ ?_ ?_⟩
    · simp only [waiting,putBatch,put,here,Point.batch,List.nil_append,List.append_nil]
      exact (sendBatch_sublist pipe s.dataBacklog).append (List.Sublist.refl _)
    · intro other different
      cases other with
      | control | encoded => rfl
      | outbound => exact (different rfl).elim
    · intro _
      simp [waiting,putBatch,put,flushed,drained]
  | forwards here =>
    refine ⟨.encoded,_,ordered.sends .encoded rfl rfl ?_ ?_ (by rintro ⟨⟩)⟩
    · simp only [waiting,List.append_nil]
      exact sendBatch_sublist pipe s.encodedQueue
    · intro other different
      cases other with
      | control => rfl
      | outbound => simp [waiting,putBatch,put,here,Point.batch]
      | encoded => exact (different rfl).elim
  | @beats point here =>
    have empty : s.point.batch = [] ∧ point.batch = [] := by
      rcases here with ⟨here,rfl⟩ | ⟨here,rfl⟩ <;> rw [here] <;> exact ⟨rfl,rfl⟩
    refine ⟨.control,_,Shift.quiet _ rfl ?_ rfl fun lane => ?_⟩
    · split <;> simp
    · cases lane <;> simp [waiting,goto,sendHeartbeat,put,empty]
  | publishes here =>
    refine ⟨.control,[],Shift.rests rfl rfl fun lane => ?_⟩
    cases lane <;> simp [waiting,here,Point.batch]

/-- A write joins the end of its lane, behind everything written before. -/
theorem InOrder.enqueued {lane : Lane} {queue : List Write} {limit : Nat} {env : Envelope}
    {store : List Write → Worker} {hasEncoded : Bool} (flagged : InOrder { s with hasEncoded })
    (wire : (store (queue ++ [⟨lane,s.written.length,env⟩])).wire = s.wire)
    (own : (store (queue ++ [⟨lane,s.written.length,env⟩])).waiting lane = s.waiting lane ++ [⟨lane,s.written.length,env⟩])
    (others : ∀ other, other ≠ lane → (store (queue ++ [⟨lane,s.written.length,env⟩])).waiting other = s.waiting other) :
    InOrder ({ s with hasEncoded }.enqueue lane queue limit env store).state := by
  unfold enqueue
  dsimp only
  split
  · have waits (other : Lane) :
        ({ store (queue ++ [⟨lane,s.written.length,env⟩]) with
          written := s.written ++ [⟨lane,s.written.length,env⟩] } : Worker).waiting other =
          (store (queue ++ [⟨lane,s.written.length,env⟩])).waiting other := by
      cases other <;> rfl
    have listed {data : Write} (member : .message data ∈ s.wire) (outbound : data.lane = .outbound) :
        data.serial < s.written.length := by
      have := (ordered.lined .outbound).subset (List.mem_append_left _ (mem_carried.mpr ⟨member,outbound⟩))
      exact ordered.counted data (List.mem_of_mem_filter this)
    refine ⟨?_,?_,fun other => ?_,?_,?_⟩
    · rw [List.pairwise_append]
      refine ⟨ordered.numbered,List.pairwise_singleton _ _,fun first old later new => ?_⟩
      rw [List.mem_singleton.mp new]
      exact ordered.counted first old
    · intro write member
      rw [List.length_append,List.length_singleton]
      rcases List.mem_append.mp member with old | new
      · have := ordered.counted write old
        omega
      · rw [List.mem_singleton.mp new]
        exact Nat.lt_succ_self _
    · rw [waits,wire,List.filter_append]
      by_cases same : other = lane
      · subst same
        rw [own,← List.append_assoc]
        exact (ordered.lined other).append (by simp)
      · rw [others other same]
        exact (ordered.lined other).trans (List.sublist_append_left _ _)
    · rw [wire]
      exact ordered.follows
    · intro data member outbound control waiting
      rw [wire] at member
      rw [waits] at waiting
      by_cases same : Lane.control = lane
      · subst same
        rw [own,List.mem_append,List.mem_singleton] at waiting
        rcases waiting with old | rfl
        · exact ordered.behind data member outbound control old
        · exact listed member outbound
      · rw [others .control same] at waiting
        exact ordered.behind data member outbound control waiting
  · exact flagged

theorem InOrder.step (label : Label) : InOrder (step label s).state := by
  have same {s' : Worker} (wire : s'.wire = s.wire) (written : s'.written = s.written)
      (waits : ∀ lane, s'.waiting lane = s.waiting lane) : InOrder s' :=
    ordered.shift (Shift.rests wire written fun lane => by rw [waits])
  by_cases syncs : label.Syncs
  · obtain ⟨syncTarget,syncRequested,caller,state,-⟩ := step_syncs s syncs
    rw [state]
    exact same rfl rfl fun lane => by cases lane <;> rfl
  cases label with
  | writeControlMessage env =>
    refine ordered.enqueued ordered rfl ?_ fun other different => ?_
    · simp [waiting]
    · cases other with
      | control => exact (different rfl).elim
      | outbound | encoded => rfl
  | writeMessage env =>
    refine ordered.enqueued ordered rfl ?_ fun other different => ?_
    · simp [waiting]
    · cases other with
      | outbound => exact (different rfl).elim
      | control | encoded => rfl
  | writeEncoded env =>
    refine ordered.enqueued (same rfl rfl fun lane => by cases lane <;> rfl) rfl rfl fun other different => ?_
    cases other with
    | encoded => exact (different rfl).elim
    | control | outbound => rfl
  | loop pipe ready =>
    obtain ⟨lane,frames,shift⟩ := ordered.advance (runLoop_advance pipe ready s)
    exact ordered.shift shift
  | process =>
    simp only [Worker.step,process]
    split
    · exact ordered
    · exact same rfl rfl fun lane => by cases lane <;> rfl
  | notify reply =>
    simp only [Worker.step]
    split
    · exact ordered
    · exact same rfl rfl fun lane => by cases lane <;> rfl
  | lose position | loseReply position | stop => exact same rfl rfl fun lane => by cases lane <;> rfl
  | call | request | await expired => exact absurd trivial syncs
  | start =>
    simp only [Worker.step,restart]
    split
    next ended =>
      refine ordered.shift (Shift.quiet [.connect] rfl (by simp) rfl fun lane => ?_)
      cases lane <;> simp [waiting,put,ended,Point.batch]
    · exact ordered

end

/-- In every run, whatever the pipe refuses and the backlogs drop, a control message
written before a message of the outbound lane is put on the wire ahead of it if both are,
and each lane is sent in the order of its writes. -/
theorem data_never_overtakes (schedule : List Label) :
    let s := (run step schedule initial).state
    (∀ control data front rest, control.lane = .control → data.lane = .outbound → control.serial < data.serial →
      .message control ∈ s.wire → s.wire = front ++ .message data :: rest → .message control ∈ front) ∧
    (carried .control s.wire).Sublist (s.written.filter (·.lane = .control)) ∧
    (carried .outbound s.wire).Sublist (s.written.filter (·.lane = .outbound)) := by
  intro s
  have ordered : InOrder s :=
    run_preserves step InOrder (fun s label ordered => ordered.step label) schedule initial initial_inOrder
  have kept (lane : Lane) := (List.sublist_append_left _ _).trans (ordered.lined lane)
  refine ⟨fun control data front rest controlled outbound earlier sent wire => ?_,kept .control,kept .outbound⟩
  have follows := ordered.follows
  rw [wire,List.mem_append,List.mem_cons] at sent
  rcases sent with ahead | same | behind
  · exact ahead
  · rw [Frame.message.injEq] at same
    rw [same,outbound] at controlled
    cases controlled
  · rw [wire,List.pairwise_append,List.pairwise_cons] at follows
    have := follows.2.1.1 _ behind outbound controlled
    omega

/-- The pipe is full for the SUBSCRIBE at first, and the message written behind it waits. -/
def heldBack : List Label :=
  comeOnline ++ [.writeControlMessage (Wire.makeControl Keys.subscribe (str "c") (str "t")),.writeMessage publication,
    .loop [false] false] ++ List.replicate 17 (.loop [] false)

example : (run step heldBack initial).state.wire = [.connect,.heartbeat 1,
    .message ⟨.control,0,Wire.makeControl Keys.subscribe (str "c") (str "t")⟩,.message ⟨.outbound,1,publication⟩] := by
  decide +kernel

end Worker

end Wisp
