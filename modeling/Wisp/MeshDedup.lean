import Mathlib.Algebra.BigOperators.Fin
import Mathlib.Algebra.Order.BigOperators.Group.Finset
import Wisp.Delivery
import Wisp.Mesh

/-! Loop protection over whole runs. What a broker reported determines its dedup
history, so a message still within the window of every broker it comes back to is
routed by each of them once, and its copies are finitely many whatever the links. -/
namespace Wisp

open Transition

/-- The ids a broker accepted, newest first. -/
def accepted (log : List Output) : List MessageId :=
  (log.filterMap fun
    | .checked id false => some id
    | _ => none).reverse

namespace Output

/-- The message went past the dedup check to the tap. -/
def routes (id : MessageId) : Output → Bool
  | .tap env => !Keys.isReservedKey env.header.handlerKey && dedupId env.header.messageUuid == id
  | _ => false

/-- A delivery attempt of the message to this client. -/
def reaches (id : MessageId) (clientId : Str) : Output → Bool
  | .send identity env _ => identity == clientId && !Keys.isReservedKey env.header.handlerKey &&
      dedupId env.header.messageUuid == id
  | _ => false

/-- A copy of the message put in flight, to a client or a link. -/
def copies (id : MessageId) : Output → Bool
  | .send _ env _ => !Keys.isReservedKey env.header.handlerKey && dedupId env.header.messageUuid == id
  | .flood _ env _ => dedupId env.header.messageUuid == id
  | _ => false

theorem silent_quiet (silent : Broker.Silent output) (id : MessageId) (clientId : Str) :
    output.routes id = false ∧ output.reaches id clientId = false ∧ output.copies id = false ∧
      output ≠ .checked id false := by
  cases output <;> simp_all [Broker.Silent,routes,reaches,copies]

end Output

@[simp] theorem accepted_append (log more : List Output) :
    accepted (log ++ more) = accepted more ++ accepted log := by
  simp [accepted]

theorem mem_accepted {id : MessageId} {log : List Output} : id ∈ accepted log ↔ .checked id false ∈ log := by
  rw [accepted,List.mem_reverse,List.mem_filterMap]
  constructor
  · rintro ⟨output,member,taken⟩
    split at taken
    · cases taken
      exact member
    · cases taken
  · exact fun member => ⟨_,member,rfl⟩

/-- Every check in the log was decided by the history of what was accepted before it. -/
def Faithful (log : List Output) : Prop :=
  ∀ front id duplicate rest, log = front ++ .checked id duplicate :: rest →
    ∃ h uuid, MessageHistory.Recollects h (accepted front) ∧ dedupId uuid = id ∧
      duplicate = (h.isDuplicate uuid).2

theorem Faithful.append (faithful : Faithful log)
    (later : ∀ front id duplicate rest, more = front ++ .checked id duplicate :: rest →
      ∃ h uuid, MessageHistory.Recollects h (accepted (log ++ front)) ∧ dedupId uuid = id ∧
        duplicate = (h.isDuplicate uuid).2) : Faithful (log ++ more) := by
  intro front id duplicate rest split
  rcases List.append_eq_append_iff.mp split with ⟨part,rfl,tail⟩ | ⟨gap,whole,tail⟩
  · exact later part id duplicate rest tail
  · cases gap with
    | nil =>
      rw [List.append_nil] at whole
      subst whole
      simpa using later [] id duplicate rest tail.symm
    | cons first gap =>
      obtain ⟨rfl,rfl⟩ := List.cons.inj tail
      exact faithful front id duplicate gap whole

/-- What follows the check and the tap of a routed message. -/
def Fanout (env : Envelope) (output : Output) : Prop :=
  Broker.Silent output ∨ (∃ clientId accepted, output = .send clientId env accepted) ∨
    ∃ key accepted, output = .flood key env accepted

theorem Fanout.quiet (fanout : Fanout env output) (id : MessageId) :
    output.routes id = false ∧ ∀ other duplicate, output ≠ .checked other duplicate := by
  rcases fanout with silent | ⟨_,_,rfl⟩ | ⟨_,_,rfl⟩
  · cases output <;> simp_all [Broker.Silent,Output.routes]
  · exact ⟨rfl,by simp⟩
  · exact ⟨rfl,by simp⟩

theorem mem_fanout (env : Envelope) {greeting : List Output} (served links : List Str) (m : Moment)
    (polite : ∀ output ∈ greeting, Broker.Silent output) :
    ∀ output ∈ greeting ++ served.map (m.sendTo · env) ++ links.map fun key => Output.flood key env (m.room key),
      Fanout env output := by
  intro output member
  rcases List.mem_append.mp member with front | flooded
  · rcases List.mem_append.mp front with greeted | sent
    · exact .inl (polite output greeted)
    · obtain ⟨clientId,_,rfl⟩ := List.mem_map.mp sent
      exact .inr (.inl ⟨clientId,_,rfl⟩)
  · obtain ⟨key,_,rfl⟩ := List.mem_map.mp flooded
    exact .inr (.inr ⟨key,_,rfl⟩)

theorem accepted_unchecked (unchecked : ∀ output ∈ log, ∀ id duplicate, output ≠ .checked id duplicate) :
    accepted log = [] := by
  simp only [accepted,List.reverse_eq_nil_iff,List.filterMap_eq_nil_iff]
  intro output member
  cases output with
  | checked id duplicate => exact (unchecked _ member id duplicate rfl).elim
  | _ => rfl

theorem served_once (env : Envelope) {greeting : List Output} {served : List Str} (links : List Str) (m : Moment)
    (published : Keys.isReservedKey env.header.handlerKey = false)
    (polite : ∀ output ∈ greeting, Broker.Silent output) (distinct : served.Nodup) (id : MessageId)
    (clientId : Str) :
    (greeting ++ served.map (m.sendTo · env) ++ links.map fun key => Output.flood key env (m.room key)).countP
      (Output.reaches id clientId) ≤ if dedupId env.header.messageUuid = id then 1 else 0 := by
  have greeted : greeting.countP (Output.reaches id clientId) = 0 :=
    List.countP_eq_zero.mpr fun output member => by
      simp [(Output.silent_quiet (polite output member) id clientId).2.1]
  have flooded : (links.map fun key => Output.flood key env (m.room key)).countP
      (Output.reaches id clientId) = 0 := by
    simp [List.countP_map,Function.comp_def,Output.reaches]
  rw [List.countP_append,List.countP_append,greeted,flooded,List.countP_map]
  by_cases same : dedupId env.header.messageUuid = id
  · have hits : Output.reaches id clientId ∘ (m.sendTo · env) = fun other => other == clientId := by
      funext other
      simp [Moment.sendTo,Output.reaches,published,same]
    have once := List.nodup_iff_count_le_one.mp distinct clientId
    rw [if_pos same,hits]
    simpa [List.count] using once
  · have misses : Output.reaches id clientId ∘ (m.sendTo · env) = fun _ => false := by
      funext other
      simp [Moment.sendTo,Output.reaches,same]
    simp [misses,same]

/-- The log of one broker and the history it left behind. -/
structure Recorded (seen : MessageHistory) (log : List Output) : Prop where
  recollects : seen.Recollects (accepted log)
  faithful : Faithful log
  routed : ∀ id, log.countP (Output.routes id) = log.count (.checked id false)
  served : ∀ id clientId, log.countP (Output.reaches id clientId) ≤ log.count (.checked id false)

theorem Recorded.new : Recorded .new [] :=
  ⟨MessageHistory.new_recollects,by simp [Faithful],by simp,by simp⟩

theorem Recorded.silent (recorded : Recorded seen log) (silent : ∀ output ∈ more, Broker.Silent output) :
    Recorded seen (log ++ more) := by
  have quiet := fun output member => Output.silent_quiet (silent output member)
  have none : accepted more = [] := accepted_unchecked fun output member id duplicate checked => by
    subst checked
    exact silent _ member
  refine ⟨?_,?_,fun id => ?_,fun id clientId => ?_⟩
  · rw [accepted_append,none]
    exact recorded.recollects
  · refine recorded.faithful.append ?_
    rintro front id duplicate rest rfl
    exact False.elim (silent (.checked id duplicate) (by simp))
  · have routes : more.countP (Output.routes id) = 0 :=
      List.countP_eq_zero.mpr fun output member => by simp [(quiet output member id []).1]
    have checks : more.count (.checked id false) = 0 :=
      List.count_eq_zero.mpr fun member => (quiet _ member id []).2.2.2 rfl
    rw [List.countP_append,List.count_append,recorded.routed,routes,checks]
  · have reaches : more.countP (Output.reaches id clientId) = 0 :=
      List.countP_eq_zero.mpr fun output member => by simp [(quiet output member id clientId).2.1]
    rw [List.countP_append,List.count_append,reaches]
    exact (recorded.served id clientId).trans (Nat.le_add_right _ _)

theorem Recorded.repeated (recorded : Recorded seen log) (known : (seen.isDuplicate uuid).2 = true) :
    Recorded (seen.isDuplicate uuid).1 (log ++ [.checked (dedupId uuid) true]) := by
  refine ⟨?_,?_,fun id => ?_,fun id clientId => ?_⟩
  · rw [MessageHistory.isDuplicate_same known,accepted_append]
    exact recorded.recollects
  · refine recorded.faithful.append ?_
    intro front id duplicate rest split
    cases front with
    | nil =>
      obtain ⟨same,_⟩ := List.cons.inj split
      obtain ⟨rfl,rfl⟩ := Output.checked.inj same
      exact ⟨seen,uuid,by simpa using recorded.recollects,rfl,known.symm⟩
    | cons first rest => simp at split
  · simpa [List.count_append,Output.routes] using recorded.routed id
  · simpa [List.count_append,Output.reaches] using recorded.served id clientId

theorem Recorded.routes (recorded : Recorded seen log) (env : Envelope) {greeting : List Output}
    {served : List Str} (links : List Str) (m : Moment)
    (published : Keys.isReservedKey env.header.handlerKey = false)
    (fresh : (seen.isDuplicate env.header.messageUuid).2 = false)
    (polite : ∀ output ∈ greeting, Broker.Silent output) (distinct : served.Nodup) :
    Recorded (seen.isDuplicate env.header.messageUuid).1
      (log ++ .checked (dedupId env.header.messageUuid) false :: .tap env ::
        (greeting ++ served.map (m.sendTo · env) ++ links.map fun key => .flood key env (m.room key))) := by
  have fanout := mem_fanout env served links m polite
  have once := served_once env links m published polite distinct
  generalize greeting ++ served.map (m.sendTo · env) ++
    (links.map fun key => Output.flood key env (m.room key)) = sent at fanout once ⊢
  have accepts : accepted (.checked (dedupId env.header.messageUuid) false :: .tap env :: sent) =
      [dedupId env.header.messageUuid] := by
    have none := accepted_unchecked fun output member => ((fanout output member).quiet ⟨0,0⟩).2
    simp only [accepted,List.reverse_eq_nil_iff] at none
    simp [accepted,none]
  have routes (id : MessageId) : sent.countP (Output.routes id) = 0 :=
    List.countP_eq_zero.mpr fun output member => by simp [((fanout output member).quiet id).1]
  have checks (id : MessageId) : sent.count (.checked id false) = 0 :=
    List.count_eq_zero.mpr fun member => ((fanout _ member).quiet id).2 id false rfl
  refine ⟨?_,?_,fun id => ?_,fun id clientId => ?_⟩
  · rw [accepted_append,accepts]
    exact recorded.recollects.accept fresh
  · refine recorded.faithful.append ?_
    intro front id duplicate rest split
    rcases front with _ | ⟨first,_ | ⟨second,front⟩⟩
    · obtain ⟨same,_⟩ := List.cons.inj split
      obtain ⟨rfl,rfl⟩ := Output.checked.inj same
      exact ⟨seen,_,by simpa using recorded.recollects,rfl,fresh.symm⟩
    · simp at split
    · simp only [List.cons_append,List.cons.injEq] at split
      exact (((fanout (.checked id duplicate) (by simp [split.2.2])).quiet id).2 id duplicate rfl).elim
  · rw [List.countP_append,List.count_append,recorded.routed,List.countP_cons,List.countP_cons,
      List.count_cons,List.count_cons,routes,checks]
    simp [Output.routes,published]
  · rw [List.countP_append,List.count_append,List.countP_cons,List.countP_cons,List.count_cons,
      List.count_cons,checks]
    refine Nat.add_le_add (recorded.served id clientId) ?_
    simpa [Output.reaches] using once id clientId

theorem Recorded.step {b : Broker} {outcome : Outcome Broker Output} (recorded : Recorded b.seen log)
    (trail : Broker.Trail b outcome) : Recorded outcome.state.seen (log ++ outcome.events) := by
  cases trail with
  | silent seen events =>
    rw [seen]
    exact recorded.silent events
  | repeated uuid known seen events =>
    rw [seen,events]
    exact recorded.repeated known
  | routed env greeting served links m published fresh seen polite distinct events =>
    rw [seen,events]
    exact recorded.routes env links m published fresh polite distinct

/-- Between any two arrivals of the message fewer than `maxHistorySize` different
other ids were accepted. -/
def WithinWindow (id : MessageId) (log : List Output) : Prop :=
  ∀ front first between last rest, log = front ++ .checked id first :: (between ++ .checked id last :: rest) →
    ((accepted between).filter (· ≠ id)).dedup.length < maxHistorySize

theorem two_occurrences [DecidableEq α] {x : α} {xs : List α} (twice : 2 ≤ xs.count x) :
    ∃ front between rest, xs = front ++ x :: (between ++ x :: rest) := by
  obtain ⟨front,rest,rfl⟩ := List.append_of_mem (List.count_pos_iff.mp (by omega : 0 < xs.count x))
  rw [List.count_append,List.count_cons_self] at twice
  by_cases early : 0 < front.count x
  · obtain ⟨first,between,rfl⟩ := List.append_of_mem (List.count_pos_iff.mp early)
    exact ⟨first,between,rest,by simp⟩
  · obtain ⟨between,last,rfl⟩ := List.append_of_mem (List.count_pos_iff.mp (by omega : 0 < rest.count x))
    exact ⟨front,between,last,rfl⟩

theorem Recorded.accepted_once {id : MessageId} (recorded : Recorded seen log) (within : WithinWindow id log) :
    log.count (.checked id false) ≤ 1 := by
  by_contra twice
  obtain ⟨front,between,rest,rfl⟩ := two_occurrences (by omega : 2 ≤ log.count (.checked id false))
  have few := within front false between false rest rfl
  obtain ⟨h,uuid,recollects,rfl,missed⟩ := recorded.faithful (front ++ .checked id false :: between) id false rest
    (by simp)
  have history : accepted (front ++ .checked (dedupId uuid) false :: between) =
      accepted between ++ dedupId uuid :: accepted front := by
    simp [accepted]
  rw [history] at recollects
  rw [recollects.recognized few] at missed
  cases missed

theorem withinWindow_short {id : MessageId} (short : log.length ≤ maxHistorySize) : WithinWindow id log := by
  rintro front first between last rest rfl
  have part : (accepted between).length ≤ between.length := by
    rw [accepted,List.length_reverse]
    exact List.length_filterMap_le _ _
  have kept := List.length_filter_le (· ≠ id) (accepted between)
  have fewer := (List.dedup_sublist ((accepted between).filter (· ≠ id))).length_le
  simp only [List.length_append,List.length_cons] at short
  simp only [decide_not] at *
  omega

namespace Mesh

variable {n : Nat} {locate : Str → Option (Fin n)} {s : Mesh n}

/-- What one broker reported in a run. -/
def outputsOf (i : Fin n) (trace : List (Fin n × Output)) : List Output :=
  trace.filterMap fun event => if event.1 = i then some event.2 else none

theorem mem_outputsOf {i : Fin n} {trace : List (Fin n × Output)} {output : Output} :
    output ∈ outputsOf i trace ↔ (i,output) ∈ trace := by
  simp [outputsOf,List.mem_filterMap]

@[simp] theorem outputsOf_append (i : Fin n) (trace more : List (Fin n × Output)) :
    outputsOf i (trace ++ more) = outputsOf i trace ++ outputsOf i more := List.filterMap_append

theorem outputsOf_same (i : Fin n) (outputs : List Output) :
    outputsOf i (outputs.map fun output => (i,output)) = outputs := by
  simp [outputsOf,List.filterMap_map]

theorem outputsOf_other {i k : Fin n} (different : k ≠ i) (outputs : List Output) :
    outputsOf i (outputs.map fun output => (k,output)) = [] := by
  simp [outputsOf,List.filterMap_map,different]

/-- A step either reports nothing and keeps every history, or is one broker's. -/
inductive Trail (s : Mesh n) (outcome : Outcome (Mesh n) (Fin n × Output)) : Prop
  | quiet (events : outcome.events = []) (seen : ∀ j, (outcome.state.broker j).seen = (s.broker j).seen)
  | acts (k : Fin n) (b : Broker) (act : Outcome Broker Output) (trail : Broker.Trail b act)
      (before : b.seen = (s.broker k).seen) (after : (outcome.state.broker k).seen = act.state.seen)
      (events : outcome.events = act.events.map fun output => (k,output))
      (others : ∀ j, j ≠ k → (outcome.state.broker j).seen = (s.broker j).seen)

theorem absorb_trail {start : Mesh n} {k : Fin n} {b : Broker} {act : Outcome Broker Output}
    (trail : Broker.Trail b act) (same : b.seen = (s.broker k).seen)
    (others : ∀ j, (start.broker j).seen = (s.broker j).seen) : Trail s (start.absorb k act) := by
  refine .acts k b act trail same (by simp [absorb]) rfl fun j different => ?_
  simpa [absorb,different] using others j

theorem arrive_trail {start : Mesh n} {k : Fin n} {env : Envelope} {senderId : Str} {isFromPeer : Bool}
    {m : Moment} (consistent : (start.broker k).subscriptions.Consistent) (others : ∀ j, (start.broker j).seen = (s.broker j).seen) :
    Trail s (start.arrive k env senderId isFromPeer m) :=
  absorb_trail (Broker.processMessage_trail consistent env senderId isFromPeer m) (others k) others

theorem setBroker_seen {i j : Fin n} {b : Broker} (same : b.seen = (s.broker i).seen) :
    ((s.setBroker i b).broker j).seen = (s.broker j).seen := by
  unfold setBroker
  by_cases here : j = i
  · subst here; simpa using same
  · simp [here]

theorem dialed_seen (i : Fin n) (key address : Str) {j : Fin n} :
    ((s.dialed locate i key address).broker j).seen = (s.broker j).seen := by
  unfold dialed
  dsimp only
  split
  · rfl
  · split
    · exact setBroker_seen rfl
    · split
      · rfl
      · exact setBroker_seen rfl

theorem answered_seen (key : Str) (env : Envelope) (room : Bool) (b : Broker) :
    (b.answered key env room).seen = b.seen := by
  unfold Broker.answered
  split_ifs <;> rfl

theorem step_trail (locate : Str → Option (Fin n)) (consistent : ∀ i, (s.broker i).subscriptions.Consistent) (label : Label n) :
    Trail s (step locate label s) := by
  have kept {i j : Fin n} {b : Broker} (same : b.subscriptions = (s.broker i).subscriptions) :
      ((s.setBroker i b).broker j).subscriptions.Consistent :=
    setBroker_all (fun b => b.subscriptions.Consistent) consistent (same ▸ consistent i)
  have effect := step_effect locate label s
  generalize step locate label s = outcome at effect
  cases effect with
  | stutter => exact .quiet rfl fun _ => rfl
  | client env m free => exact arrive_trail (consistent _) fun _ => rfl
  | timeout known => exact .quiet rfl fun _ => setBroker_seen rfl
  | control message m joins head => exact arrive_trail (kept rfl) fun _ => setBroker_seen rfl
  | flooded env m joins led head => exact arrive_trail (kept rfl) fun _ => setBroker_seen rfl
  | answer env room joins queued => exact .quiet rfl fun _ => setBroker_seen (answered_seen _ _ _ _)
  | inbound env m queued => exact arrive_trail (kept rfl) fun _ => setBroker_seen rfl
  | heartbeat m joins led => exact arrive_trail (consistent _) fun _ => rfl
  | dial => exact .quiet rfl fun _ => dialed_seen _ _ _
  | datagram discovery => exact .quiet rfl fun _ => setBroker_seen rfl
  | discovered discovery key address =>
    refine .quiet rfl fun j => (dialed_seen _ _ _).trans ?_
    exact setBroker_seen rfl
  | @expire i _ discovery keys =>
    exact absorb_trail (.silent (Broker.removePeers_keeps keys { s.broker i with discovery }).seen
      (Broker.removePeers_silent keys _)) rfl fun _ => rfl
  | hangup =>
    exact absorb_trail (.silent (Broker.removePeer_keeps _ _).seen (Broker.removePeer_silent _ _)) rfl fun _ => rfl
  | closing message m found target head =>
    refine arrive_trail ?_ fun _ => rfl
    exact consistent _
  | closed => exact .quiet rfl fun _ => rfl

/-- Every broker is valid and its log accounts for its history. -/
structure Accounted (s : Mesh n) (trace : List (Fin n × Output)) : Prop where
  valid : ∀ i, (s.broker i).toRouting.Valid
  recorded : ∀ i, Recorded (s.broker i).seen (outputsOf i trace)

theorem Accounted.step {trace : List (Fin n × Output)} (accounted : Accounted s trace) (label : Label n) :
    Accounted (step locate label s).state (trace ++ (step locate label s).events) := by
  refine ⟨step_upheld Routing.valid_upheld label s accounted.valid,fun i => ?_⟩
  have trail := step_trail locate (fun i => (accounted.valid i).consistent) label
  rw [outputsOf_append]
  cases trail with
  | quiet events seen =>
    rw [events,seen]
    simpa [outputsOf] using accounted.recorded i
  | acts k b act trail before after events others =>
    by_cases same : i = k
    · subst same
      rw [events,after,outputsOf_same]
      exact (before ▸ accounted.recorded i).step trail
    · rw [events,others i same,outputsOf_other (Ne.symm same),List.append_nil]
      exact accounted.recorded i

theorem run_accounted (locate : Str → Option (Fin n)) (initial : Initial s) (schedule : List (Label n)) :
    Accounted (run (step locate) schedule s).state (run (step locate) schedule s).events := by
  have started : Accounted s [] := by
    refine ⟨initial.valid,fun i => ?_⟩
    obtain ⟨_,_,_,new⟩ := initial.fresh i
    rw [new]
    exact Recorded.new
  exact run_reports (step locate) Accounted (fun _ _ label accounted => accounted.step label) schedule s started

theorem countP_brokers (trace : List (Fin n × Output)) (p : Output → Bool) :
    trace.countP (fun event => p event.2) = ∑ i, (outputsOf i trace).countP p := by
  induction trace with
  | nil => simp [outputsOf]
  | cons event rest ih =>
    have part (i : Fin n) : (outputsOf i (event :: rest)).countP p =
        (outputsOf i rest).countP p + if i = event.1 then (if p event.2 then 1 else 0) else 0 := by
      unfold outputsOf
      by_cases here : event.1 = i
      · subst here; simp [List.countP_cons]
      · simp [here,Ne.symm here]
    simp only [part,Finset.sum_add_distrib,Finset.sum_ite_eq',Finset.mem_univ,if_true,← ih,List.countP_cons]

/-- Copies are put in flight only by the step that accepts the message. -/
theorem Trail.copied {outcome : Outcome (Mesh n) (Fin n × Output)} (trail : Trail s outcome) (id : MessageId)
    (unchecked : outcome.events.countP (fun event => event.2 == .checked id false) = 0) :
    outcome.events.countP (fun event => event.2.copies id) = 0 := by
  cases trail with
  | quiet events => simp [events]
  | acts k b act trail before after events others =>
    rw [events,List.countP_map] at unchecked ⊢
    rw [List.countP_eq_zero] at unchecked ⊢
    intro output member
    cases trail with
    | silent seen silent => simp [(Output.silent_quiet (silent output member) id []).2.2.1]
    | repeated uuid known seen whole =>
      rw [whole,List.mem_singleton] at member
      simp [member,Output.copies]
    | routed env greeting served links m published fresh seen polite distinct whole =>
      have other : dedupId env.header.messageUuid ≠ id := by
        rintro rfl
        exact unchecked (.checked (dedupId env.header.messageUuid) false) (by simp [whole]) (by simp)
      rw [whole,List.mem_cons,List.mem_cons] at member
      rcases member with rfl | rfl | sent
      · simp [Output.copies]
      · simp [Output.copies]
      · rcases mem_fanout env served links m polite output sent with silent | ⟨_,_,rfl⟩ | ⟨_,_,rfl⟩
        · simp [(Output.silent_quiet silent id []).2.2.1]
        · simp [Output.copies,other]
        · simp [Output.copies,other]

/-- At most once, and the flood ends. -/
theorem routed_at_most_once (locate : Str → Option (Fin n)) (s : Mesh n) (initial : Initial s)
    (schedule : Nat → Label n) (id : MessageId)
    (within : ∀ count i, WithinWindow id (outputsOf i (runFor (step locate) schedule s count).events)) :
    (∀ count i, (outputsOf i (runFor (step locate) schedule s count).events).countP (Output.routes id) ≤ 1) ∧
    (∀ count i clientId,
      (outputsOf i (runFor (step locate) schedule s count).events).countP (Output.reaches id clientId) ≤ 1) ∧
    ∃ bound, ∀ count,
      (runFor (step locate) schedule s count).events.countP (fun event => event.2.copies id) ≤ bound := by
  have accounted (count : Nat) : Accounted (runFor (step locate) schedule s count).state
      (runFor (step locate) schedule s count).events := run_accounted locate initial _
  have once (count : Nat) (i : Fin n) :
      (outputsOf i (runFor (step locate) schedule s count).events).count (.checked id false) ≤ 1 :=
    ((accounted count).recorded i).accepted_once (within count i)
  refine ⟨fun count i => ?_,fun count i clientId => ?_,?_⟩
  · exact (((accounted count).recorded i).routed id).trans_le (once count i)
  · exact (((accounted count).recorded i).served id clientId).trans (once count i)
  · refine bounded_reports (fun event => event.2 == .checked id false) _ n (fun count => ?_) fun count => ?_
    · rw [countP_brokers _ (fun output => output == .checked id false)]
      exact (Finset.sum_le_sum fun i _ => once count i).trans (by simp)
    · exact (step_trail locate (fun i => ((accounted count).valid i).consistent) _).copied id

/-- Two brokers that dialed each other, each with a subscriber: the message reaches the second
over both links and comes back to the first. -/
def floodedBack : List (Label 2) :=
  [.dial 0 (str "b") (str "b"),.control 0 (str "b") (stamping 0),
    .dial 1 (str "a") (str "a"),.control 1 (str "a") (stamping 0),
    .client 0 (str "c") (subscription (str "t") .any) (stamping 0),.control 0 (str "b") (stamping 0),
    .client 1 (str "d") (subscription (str "t") .any) (stamping 0),.control 1 (str "a") (stamping 0),
    .client 0 (str "p") (publication (str "t")) (stamping 1),
    .flooded 0 (str "b") (stamping 0),.answer 1 (str "a") true,.inbound 1 (stamping 0),
    .flooded 1 (str "a") (stamping 0)]

/-- Then nothing is left to move. -/
def floodedBackForEver (t : Nat) : Label 2 := floodedBack.getD t (.closing 0 (.roomy []))

def floodedBackFor (count : Nat) : Outcome (Mesh 2) (Fin 2 × Output) :=
  runFor (step pair) floodedBackForEver (start pairIds fun _ => none) count

theorem floodedBack_settles (count : Nat) : floodedBackFor (floodedBack.length + count) = floodedBackFor floodedBack.length := by
  induction count with
  | zero => rfl
  | succ count ih =>
    have idle : floodedBackForEver (floodedBack.length + count) = .closing 0 (.roomy []) :=
      List.getD_eq_default _ _ (Nat.le_add_right _ _)
    have empty : (floodedBackFor floodedBack.length).state.closing = [] := by decide +kernel
    have still : step pair (.closing 0 (.roomy [])) (floodedBackFor floodedBack.length).state =
        ⟨(floodedBackFor floodedBack.length).state,[]⟩ := by
      simp only [step,closes,empty,List.getElem?_nil]
    rw [floodedBackFor,← Nat.add_assoc,runFor_succ,idle]
    change (floodedBackFor (floodedBack.length + count)).andThen _ = _
    rw [ih,Outcome.andThen,still,List.append_nil]

/-- Each of the two meets the message twice and routes it once. -/
theorem routed_at_most_once_flooded_back :
    let id := dedupId (stamping 1).uuid
    (∀ i, .checked id false ∈ outputsOf i (floodedBackFor floodedBack.length).events ∧
      .checked id true ∈ outputsOf i (floodedBackFor floodedBack.length).events) ∧
    (∀ count i, (outputsOf i (floodedBackFor count).events).countP (Output.routes id) ≤ 1) ∧
    (∀ count i clientId, (outputsOf i (floodedBackFor count).events).countP (Output.reaches id clientId) ≤ 1) ∧
    ∃ bound, ∀ count, (floodedBackFor count).events.countP (fun event => event.2.copies id) ≤ bound := by
  have short : ∀ count : Fin (floodedBack.length + 1), ∀ i,
      (outputsOf i (floodedBackFor count).events).length ≤ maxHistorySize := by
    decide +kernel
  refine ⟨by decide +kernel,routed_at_most_once pair (start pairIds fun _ => none) (start_initial _ _) floodedBackForEver _
    fun count i => withinWindow_short ?_⟩
  rcases Nat.lt_or_ge count (floodedBack.length + 1) with early | late
  · exact short ⟨count,early⟩ i
  · obtain ⟨more,rfl⟩ := Nat.exists_eq_add_of_le (show floodedBack.length ≤ count by omega)
    change (outputsOf i (floodedBackFor (floodedBack.length + more)).events).length ≤ maxHistorySize
    rw [floodedBack_settles]
    exact short (Fin.last _) i

end Mesh

end Wisp
