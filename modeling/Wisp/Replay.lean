import Wisp.Recording
import Wisp.WorkerPublisher

/-! The replay command: a capture is published back through a worker of its own. The
command waits for the broker's first answer, reads the records one by one, leaves out the
control traffic, holds each record until it is due and hands it to the worker; then it
calls `sync` once more and closes. The worker's loop, the broker and the connection act
between any two of its steps. -/
namespace Wisp

open Transition Recording

structure ReplayOptions where
  clientId : Str
  includeControl : Bool := false
  preserveUuids : Bool := false
  /-- When a record is due, by its offset; at speed 0 none waits. -/
  due : Option (Int → Int) := none

namespace ReplayOptions

/-- Control traffic is a broker's own conversation. -/
def skips (options : ReplayOptions) (env : Envelope) : Bool :=
  !options.includeControl && Keys.isReservedKey env.header.handlerKey

/-- The receiving broker stamps a message that names neither its id nor its origin. -/
def prepare (options : ReplayOptions) (env : Envelope) : Envelope :=
  if options.preserveUuids then env
  else { env with header := { env.header with messageUuid := [], originBrokerId := [] } }

/-- What a whole replay of some records publishes. -/
def published (options : ReplayOptions) (records : List Record) : List Envelope :=
  (records.filter fun record => !options.skips record.envelope).map fun record => options.prepare record.envelope

end ReplayOptions

inductive Replay.Stage where
  | opening
  | reading
  | holding (record : Record)
  | confirming
  | closing (status : Nat)
  | stopping (status : Nat)
  | joining (status : Nat)
  | returned (status : Nat)
  deriving DecidableEq, Repr

structure Replay where
  worker : Worker := .initial
  stage : Replay.Stage
  /-- What is left of the capture. -/
  rest : Str
  sent : Nat := 0
  skipped : Nat := 0
  interrupted : Bool := false
  /-- The heartbeat that the last successful `sync` waited for. -/
  confirmed : Nat := 0

namespace Replay

inductive Label where
  /-- The command's next step, with the time since it started and whether a wait runs out. -/
  | command (elapsed : Int) (expired : Bool)
  | interrupt
  | outside (label : Worker.Label)

def sync (expired : Bool) (next : Stage) (s : Replay) : Replay :=
  let outcome := s.worker.syncSection expired
  match outcome.events with
  | [.returned _ target true] => { s with worker := outcome.state, stage := next, confirmed := target }
  | [.returned _ _ false] => { s with worker := outcome.state, stage := .closing 1 }
  | _ => { s with worker := outcome.state }

def readRecord (codec : HeaderCodec) (options : ReplayOptions) (s : Replay) : Replay :=
  if s.interrupted then { s with stage := .confirming }
  else
    match RecordReader.read codec s.rest with
    | .clean => { s with stage := .confirming }
    | .fault _ => { s with stage := .closing 1 }
    | .record record rest =>
      if options.skips record.envelope then { s with rest, skipped := s.skipped + 1 }
      else { s with rest, stage := .holding record }

/-- An interrupt cuts the wait short, and the record is published nevertheless. -/
def publishEnvelope (options : ReplayOptions) (elapsed : Int) (record : Record) (s : Replay) : Replay :=
  if s.interrupted = false ∧ ∃ due ∈ options.due, elapsed < due record.offsetMicros then s
  else
    let outcome := s.worker.writeMessage (options.prepare record.envelope)
    if outcome.events = [.wrote true] then { s with worker := outcome.state, sent := s.sent + 1, stage := .reading }
    else { s with worker := outcome.state, stage := .closing 1 }

/-- A command that fails leaves its session to be closed all the same. -/
def command (codec : HeaderCodec) (options : ReplayOptions) (elapsed : Int) (expired : Bool) (s : Replay) : Replay :=
  match s.stage with
  | .opening => s.sync expired .reading
  | .reading => s.readRecord codec options
  | .holding record => s.publishEnvelope options elapsed record
  | .confirming => s.sync expired (.closing 0)
  | .closing status =>
    { s with
      worker := (Worker.step (.writeControlMessage (Wire.makeControl Keys.disconnect options.clientId [])) s.worker).state
      stage := .stopping status }
  | .stopping status => { s with worker := (Worker.step .stop s.worker).state, stage := .joining status }
  | .joining status => if s.worker.point = .ended then { s with stage := .returned status } else s
  | .returned _ => s

def step (codec : HeaderCodec) (options : ReplayOptions) : Label → Replay → Outcome Replay Empty
  | .command elapsed expired, s => ⟨s.command codec options elapsed expired,[]⟩
  | .interrupt, s => ⟨{ s with interrupted := true },[]⟩
  | .outside label, s =>
    ⟨if label.Outside then { s with worker := (Worker.step label s.worker).state } else s,[]⟩

/-- The capture is opened first, and then the session, which may fail as well. -/
def start (file : Option Str) (opens : Bool) : Replay :=
  match file.bind RecordReader.openFile with
  | none => { stage := .returned 1, rest := [] }
  | some rest => { stage := if opens then .opening else .returned 1, rest }

/-- The pipe takes every message and the heartbeat of the last `sync`, and that call is
not made when the loop is past the outbound queue and a record is still on it. -/
def Accepting (s : Replay) : Label → Prop
  | .outside (.loop pipe _) =>
    match s.worker.point with
    | .place batch => Worker.sendBatch pipe batch = batch
    | .beat => s.stage = .confirming → pipe.headD true = true
    | _ => True
  | .command _ _ =>
    match s.stage, s.worker.caller with
    | .confirming, .called _ => s.worker.point.Passed → s.worker.outboundQueue = []
    | _, _ => True
  | _ => True

instance (s : Replay) (label : Label) : Decidable (s.Accepting label) := by
  unfold Accepting
  split
  · split <;> infer_instance
  · split <;> infer_instance
  · infer_instance

/-- What became of a call of `sync`. -/
inductive Synced (next : Stage) (s : Replay) : Replay → Prop
  | goes {w : Worker} (syncs : s.worker.Syncs ⟨w,[]⟩) : Synced next s { s with worker := w }
  | returns {w : Worker} {promised target : Nat} (syncs : s.worker.Syncs ⟨w,[.returned promised target true]⟩) :
      Synced next s { s with worker := w, stage := next, confirmed := target }
  | fails (w : Worker) : Synced next s { s with worker := w, stage := .closing 1 }

theorem sync_synced (expired : Bool) (next : Stage) (s : Replay) : Synced next s (s.sync expired next) := by
  have syncs := Worker.syncSection_syncs expired s.worker
  unfold sync
  generalize s.worker.syncSection expired = outcome at syncs ⊢
  have kept := syncs
  cases syncs with
  | calls | requests | waits | finds => exact .goes kept
  | confirms => exact .returns kept
  | fails w => exact .fails w

section

variable (codec : HeaderCodec) (options : ReplayOptions) (file : Str)

/-- The records read so far have been written, up to one in hand. -/
structure Progress (pending : List Envelope) (s : Replay) : Prop where
  publishing : s.worker.Publishing
  counted : s.sent = s.worker.written.length
  read : ∃ done, (∀ records fault, Reads codec s.rest records fault → Reads codec file (done ++ records) fault) ∧
    s.worker.written.map Write.envelope ++ pending = options.published done

/-- All of them are on the wire, ahead of the heartbeat that was waited for. -/
structure Delivered (s : Replay) : Prop where
  silent : s.worker.waiting .outbound = []
  counted : s.sent = (carried .outbound s.worker.wire).length
  whole : s.interrupted = false → ∃ records, Reads codec file records none ∧ ∃ front rest,
    s.worker.wire = front ++ .heartbeat s.confirmed :: rest ∧
      (carried .outbound front).map Write.envelope = options.published records

/-- How far the command has come at each of its stages. -/
def Keeps (s : Replay) : Stage → Prop
  | .opening => Progress codec options file [] s ∧ s.worker.written = []
  | .reading => Progress codec options file [] s ∧ s.worker.caller = .idle
  | .holding record => Progress codec options file [options.prepare record.envelope] s ∧ s.worker.caller = .idle
  | .confirming => Progress codec options file [] s ∧ s.worker.Confirming ∧
      (s.interrupted = false → RecordReader.read codec s.rest = .clean)
  | .closing status | .stopping status | .joining status | .returned status =>
    status = 0 → Delivered codec options file s

end

variable {codec : HeaderCodec} {options : ReplayOptions} {file : Str} {s : Replay}

theorem step_inOrder (label : Label) (ordered : s.worker.InOrder) : (step codec options label s).state.worker.InOrder := by
  have synced (expired : Bool) (next : Stage) : (s.sync expired next).worker.InOrder := by
    have moved : (s.worker.syncSection expired).state.InOrder := by
      obtain ⟨label,same⟩ := Worker.syncSection_step expired s.worker
      rw [same]
      exact ordered.step label
    unfold sync
    dsimp only
    split <;> exact moved
  cases label with
  | command elapsed expired =>
    simp only [step,command]
    split
    · exact synced expired _
    · unfold readRecord
      split_ifs
      · exact ordered
      · split
        · exact ordered
        · exact ordered
        · split_ifs <;> exact ordered
    next record _ =>
      unfold publishEnvelope
      dsimp only
      have written := ordered.step (.writeMessage (options.prepare record.envelope))
      split_ifs
      · exact ordered
      · exact written
      · exact written
    · exact synced expired _
    · exact ordered.step _
    · exact ordered.step _
    · split_ifs <;> exact ordered
    · exact ordered
  | interrupt => exact ordered
  | outside label =>
    simp only [step]
    split_ifs
    · exact ordered.step label
    · exact ordered

theorem Progress.worker {pending : List Envelope} {w : Worker} (progress : Progress codec options file pending s)
    (publishing : w.Publishing) (written : w.written = s.worker.written) :
    Progress codec options file pending { s with worker := w } where
  publishing := publishing
  counted := by rw [written]; exact progress.counted
  read := by rw [written]; exact progress.read

/-- A record is read, and left out or taken in hand. -/
theorem Progress.reads {record : Record} {rest : Str} (progress : Progress codec options file [] s)
    (read : RecordReader.read codec s.rest = .record record rest) (skipped : Nat) (stage : Stage) :
    Progress codec options file (if options.skips record.envelope then [] else [options.prepare record.envelope])
      { s with rest, skipped, stage } where
  publishing := progress.publishing
  counted := progress.counted
  read := by
    obtain ⟨done,reads,same⟩ := progress.read
    refine ⟨done ++ [record],fun records fault later => ?_,?_⟩
    · rw [List.append_assoc]
      exact reads _ _ (.record read later)
    · rw [List.append_nil] at same
      rw [same]
      cases left : options.skips record.envelope <;> simp [ReplayOptions.published,left]

theorem Progress.publishes {env : Envelope} (progress : Progress codec options file [env] s)
    (idle : s.worker.caller = .idle) (accepted : (s.worker.writeMessage env).events = [.wrote true]) :
    Progress codec options file []
      { s with worker := (s.worker.writeMessage env).state, sent := s.sent + 1, stage := .reading } := by
  have written : (s.worker.writeMessage env).state.written = s.worker.written ++ [⟨.outbound,s.worker.written.length,env⟩] := by
    unfold Worker.writeMessage Worker.enqueue at accepted ⊢
    dsimp only at accepted ⊢
    split
    · rfl
    next full => simp [full] at accepted
  refine ⟨progress.publishing.writes idle env,?_,?_⟩
  · rw [written,List.length_append,progress.counted]
    rfl
  · obtain ⟨done,reads,same⟩ := progress.read
    refine ⟨done,reads,?_⟩
    rw [written,List.map_append,List.append_nil]
    exact same

/-- The last `sync` has returned. -/
theorem Progress.delivered {target : Nat} (progress : Progress codec options file [] s)
    (finished : s.interrupted = false → RecordReader.read codec s.rest = .clean) (behind : s.worker.Behind target)
    (stage : Stage) : Delivered codec options file { s with stage, confirmed := target } := by
  obtain ⟨carried,silent⟩ := behind.all_sent progress.publishing
  refine ⟨silent,by rw [carried]; exact progress.counted,fun uninterrupted => ?_⟩
  obtain ⟨done,reads,same⟩ := progress.read
  obtain ⟨front,rest,wire,all⟩ := behind
  refine ⟨done,?_,front,rest,wire,?_⟩
  · have ended := reads [] none (.clean (finished uninterrupted))
    rwa [List.append_nil] at ended
  · rw [all,← same,List.append_nil]

/-- Nothing waits to be sent, so nothing more comes. -/
theorem Delivered.worker {w : Worker} {frames : List Frame} (delivered : Delivered codec options file s)
    (wire : w.wire = s.worker.wire ++ frames)
    (shrinks : (carried .outbound frames ++ w.waiting .outbound).Sublist (s.worker.waiting .outbound)) (stage : Stage) :
    Delivered codec options file { s with worker := w, stage } := by
  rw [delivered.silent,List.sublist_nil,List.append_eq_nil_iff] at shrinks
  obtain ⟨none,silent⟩ := shrinks
  refine ⟨silent,?_,fun uninterrupted => ?_⟩
  · rw [wire,carried_append,none,List.append_nil]
    exact delivered.counted
  · obtain ⟨records,reads,front,rest,split,all⟩ := delivered.whole uninterrupted
    exact ⟨records,reads,front,rest ++ frames,by simp [wire,split],all⟩

theorem Delivered.same {w : Worker} (delivered : Delivered codec options file s)
    (same : w.wire = s.worker.wire ∧ w.waiting .outbound = s.worker.waiting .outbound) (stage : Stage) :
    Delivered codec options file { s with worker := w, stage } := by
  have wire : w.wire = s.worker.wire ++ [] := by rw [same.1,List.append_nil]
  apply delivered.worker wire
  rw [same.2]
  exact List.Sublist.refl _

section

variable {stage : Stage} (keeps : Keeps codec options file s stage)

include keeps

theorem Keeps.outside (here : s.stage = stage) {label : Worker.Label} (ordered : s.worker.InOrder) (outside : label.Outside)
    (accepting : s.Accepting (.outside label)) :
    Keeps codec options file { s with worker := (Worker.step label s.worker).state } stage := by
  obtain ⟨written,caller⟩ := Worker.outside_frame outside s.worker
  have takes (pipe : List Bool) (ready : Bool) (batch : List Write) (same : label = .loop pipe ready)
      (placing : s.worker.point = .place batch) : Worker.sendBatch pipe batch = batch := by
    subst same
    simpa only [Accepting,placing] using accepting
  have moves {pending : List Envelope} (progress : Progress codec options file pending s) :
      Progress codec options file pending { s with worker := (Worker.step label s.worker).state } :=
    progress.worker (progress.publishing.outside outside takes) written
  cases stage with
  | opening => exact ⟨moves keeps.1,written.trans keeps.2⟩
  | reading | holding record => exact ⟨moves keeps.1,caller.trans keeps.2⟩
  | confirming =>
    refine ⟨moves keeps.1,keeps.2.1.outside keeps.1.publishing outside fun pipe ready same beating => ?_,keeps.2.2⟩
    subst same
    simp only [Accepting,beating] at accepting
    exact accepting here
  | closing status | stopping status | joining status | returned status =>
    intro success
    obtain ⟨frames,wire,shrinks⟩ := ordered.outside outside
    exact (keeps success).worker wire shrinks _

theorem Keeps.interrupts : Keeps codec options file { s with interrupted := true } stage := by
  have moves {pending : List Envelope} (progress : Progress codec options file pending s) :
      Progress codec options file pending { s with interrupted := true } :=
    ⟨progress.publishing,progress.counted,progress.read⟩
  cases stage with
  | opening | reading | holding record => exact ⟨moves keeps.1,keeps.2⟩
  | confirming => exact ⟨moves keeps.1,keeps.2.1,nofun⟩
  | closing status | stopping status | joining status | returned status =>
    exact fun success => ⟨(keeps success).silent,(keeps success).counted,nofun⟩

end

theorem Keeps.of_stage {stage : Stage} (here : s.stage = stage) (keeps : Keeps codec options file s stage) :
    Keeps codec options file s s.stage := by
  rw [here]
  exact keeps

/-- The first `sync` finds nothing written. -/
theorem Keeps.opens (keeps : Keeps codec options file s .opening) (here : s.stage = .opening) (expired : Bool) :
    Keeps codec options file (s.sync expired .reading) (s.sync expired .reading).stage := by
  obtain ⟨progress,unwritten⟩ := keeps
  have queue : s.worker.outboundQueue = [] := by
    have unbroken := progress.publishing.unbroken
    rw [unwritten,List.append_eq_nil_iff] at unbroken
    exact unbroken.2
  have synced := sync_synced expired .reading s
  generalize s.sync expired .reading = s' at synced ⊢
  cases synced with
  | goes syncs =>
    obtain ⟨publishing,written⟩ := progress.publishing.syncs syncs (fun _ _ _ => queue) (by simp)
    exact .of_stage here ⟨progress.worker publishing written,written.trans unwritten⟩
  | @returns w promised target syncs =>
    obtain ⟨publishing,written⟩ := progress.publishing.syncs syncs (fun _ _ _ => queue) (by simp)
    have progress := progress.worker publishing written
    have idle : w.caller = .idle := by cases syncs; rfl
    exact ⟨⟨progress.publishing,progress.counted,progress.read⟩,idle⟩
  | fails => exact nofun

theorem Keeps.confirms (keeps : Keeps codec options file s .confirming) (here : s.stage = .confirming) (expired : Bool)
    (asks : ∀ promised, s.worker.caller = .called promised → s.worker.point.Passed → s.worker.outboundQueue = []) :
    Keeps codec options file (s.sync expired (.closing 0)) (s.sync expired (.closing 0)).stage := by
  obtain ⟨progress,confirming,finished⟩ := keeps
  have synced := sync_synced expired (.closing 0) s
  generalize s.sync expired (.closing 0) = s' at synced ⊢
  cases synced with
  | goes syncs =>
    obtain ⟨publishing,written⟩ := progress.publishing.syncs syncs asks (by simp)
    exact .of_stage here ⟨progress.worker publishing written,confirming.goes syncs,finished⟩
  | returns syncs =>
    obtain ⟨publishing,written⟩ := progress.publishing.syncs syncs asks (by simp)
    exact fun _ => (progress.worker publishing written).delivered finished (confirming.returns syncs) _
  | fails => exact nofun

theorem Keeps.reads (keeps : Keeps codec options file s .reading) (here : s.stage = .reading) :
    Keeps codec options file (s.readRecord codec options) (s.readRecord codec options).stage := by
  obtain ⟨progress,idle⟩ := keeps
  have ended (finished : s.interrupted = false → RecordReader.read codec s.rest = .clean) :
      Keeps codec options file { s with stage := .confirming } .confirming :=
    ⟨⟨progress.publishing,progress.counted,progress.read⟩,progress.publishing.begins idle,finished⟩
  unfold readRecord
  split
  next interrupted => exact ended fun uninterrupted => absurd (uninterrupted ▸ interrupted) (by decide)
  · split
    next clean => exact ended fun _ => clean
    · exact nofun
    next record rest read =>
      split
      next skipped =>
        have progress := progress.reads read (s.skipped + 1) s.stage
        rw [if_pos skipped] at progress
        exact .of_stage here ⟨progress,idle⟩
      next kept =>
        have progress := progress.reads read s.skipped (.holding record)
        rw [if_neg kept] at progress
        exact ⟨progress,idle⟩

theorem Keeps.publishes {record : Record} (keeps : Keeps codec options file s (.holding record))
    (here : s.stage = .holding record) (elapsed : Int) :
    Keeps codec options file (s.publishEnvelope options elapsed record) (s.publishEnvelope options elapsed record).stage := by
  obtain ⟨progress,idle⟩ := keeps
  unfold publishEnvelope
  dsimp only
  split_ifs with early accepted
  · exact .of_stage here ⟨progress,idle⟩
  · refine ⟨progress.publishes idle accepted,?_⟩
    unfold Worker.writeMessage Worker.enqueue
    dsimp only
    split <;> exact idle
  · exact nofun

theorem Keeps.command (keeps : Keeps codec options file s s.stage) (elapsed : Int) (expired : Bool)
    (accepting : s.Accepting (.command elapsed expired)) :
    Keeps codec options file (s.command codec options elapsed expired) (s.command codec options elapsed expired).stage := by
  unfold Replay.command
  split
  next here =>
    rw [here] at keeps
    exact keeps.opens here expired
  next here =>
    rw [here] at keeps
    exact keeps.reads here
  next record here =>
    rw [here] at keeps
    exact keeps.publishes here elapsed
  next here =>
    rw [here] at keeps
    refine keeps.confirms here expired fun promised calling => ?_
    simpa only [Accepting,here,calling] using accepting
  next status here =>
    rw [here] at keeps
    intro success
    apply (keeps success).same
    simp only [Worker.step,Worker.writeControlMessage,Worker.enqueue]
    split <;> exact ⟨rfl,rfl⟩
  next status here =>
    rw [here] at keeps
    intro success
    apply (keeps success).same
    exact ⟨rfl,rfl⟩
  next status here =>
    rw [here] at keeps
    split_ifs
    · exact fun success => ⟨(keeps success).silent,(keeps success).counted,(keeps success).whole⟩
    · exact .of_stage here keeps
  next status here => exact keeps

theorem Keeps.step (keeps : Keeps codec options file s s.stage) (ordered : s.worker.InOrder) (label : Label)
    (accepting : s.Accepting label) :
    Keeps codec options file (step codec options label s).state (step codec options label s).state.stage := by
  cases label with
  | command elapsed expired => exact keeps.command elapsed expired accepting
  | interrupt => exact keeps.interrupts
  | outside label =>
    simp only [Replay.step]
    split_ifs with outside
    · exact keeps.outside rfl ordered outside accepting
    · exact keeps

theorem start_keeps (rest : Str) : Keeps codec options rest { stage := .opening, rest } .opening :=
  ⟨⟨Worker.initial_publishing,rfl,[],fun _ _ reads => reads,rfl⟩,rfl⟩

theorem returned_stays {status : Nat} (returned : s.stage = .returned status) (label : Label) :
    (step codec options label s).state.stage = .returned status := by
  cases label with
  | command elapsed expired =>
    simp only [step,command,returned]
  | interrupt => exact returned
  | outside label =>
    simp only [step]
    split_ifs <;> exact returned

/-- In every run in which the pipe takes the records and the last heartbeat, and in which
the last `sync` finds the loop with the outbound queue before it or empty, a replay that
returns 0 and was not interrupted has put every record but the skipped ones on the wire in
order, ahead of the heartbeat it waited for, and reports as many as went on the wire. -/
theorem successful_replay_delivered (codec : HeaderCodec) (options : ReplayOptions) (file : Option Str) (opens : Bool)
    (schedule : List Label) (accepting : Always (step codec options) Accepting schedule (start file opens)) :
    let s := (run (step codec options) schedule (start file opens)).state
    s.stage = .returned 0 → s.interrupted = false →
      s.sent = (carried .outbound s.worker.wire).length ∧
      ∃ capture records, file = some capture ∧ Captures codec capture records ∧
        ∃ front rest, s.worker.wire = front ++ .heartbeat s.confirmed :: rest ∧
          (carried .outbound front).map Write.envelope = options.published records := by
  intro s returned uninterrupted
  have failed (begun : (start file opens).stage = .returned 1) : s.stage = .returned 1 :=
    run_preserves (step codec options) (fun s => s.stage = .returned 1)
      (fun _ label returned => returned_stays returned label) schedule _ begun
  have unfailed (begun : (start file opens).stage = .returned 1) : False := by
    rw [failed begun] at returned
    cases returned
  cases opened : file.bind RecordReader.openFile with
  | none => exact (unfailed (by rw [start,opened])).elim
  | some rest =>
    cases opens with
    | false => exact (unfailed (by simp only [start,opened]; rfl)).elim
    | true =>
      have begun : start file true = { stage := .opening, rest } := by simp [start,opened]
      have kept : s.worker.InOrder ∧ Keeps codec options rest s s.stage := by
        apply run_invariant (step codec options) (fun s => s.worker.InOrder ∧ Keeps codec options rest s s.stage)
          (fun s label met kept => ⟨step_inOrder label kept.1,kept.2.step kept.1 label met⟩) schedule _ accepting
        rw [begun]
        exact ⟨Worker.initial_inOrder,start_keeps rest⟩
      have delivered : Delivered codec options rest s := by
        have keeps := kept.2
        rw [returned] at keeps
        exact keeps rfl
      obtain ⟨capture,rfl,marked⟩ := Option.bind_eq_some_iff.mp opened
      obtain ⟨records,reads,sent⟩ := delivered.whole uninterrupted
      exact ⟨delivered.counted,capture,records,rfl,⟨rest,marked,reads⟩,sent⟩

/-- A capture of one message, replayed unpaced. -/
def capture : Str := magic ++ [⟨Worker.publication,0⟩].flatMap (RecordWriter.write .plain)

theorem captures_capture : Captures .plain capture [⟨Worker.publication,0⟩] := by
  apply captures_written
  intro record member
  rw [List.mem_singleton.mp member]
  exact ⟨by decide,by decide,by decide,by decide⟩

def commands (count : Nat) : List Label := List.replicate count (.command 0 false)

def turns (count : Nat) (ready : Bool) : List Label := List.replicate count (.outside (.loop [] ready))

/-- The broker answers the first `sync`. -/
def session : List Label :=
  Worker.comeOnline.map .outside ++ commands 2 ++ turns 11 false ++ [.outside .process] ++ turns 2 false ++ turns 3 true ++
    commands 2

/-- From the heartbeat of the last `sync` to the end. -/
def ending : List Label :=
  [.outside .process,.outside .process] ++ turns 3 false ++ turns 2 true ++ commands 4 ++ turns 14 false ++ commands 1

def replayed (pipe : List Bool) : List Label :=
  session ++ commands 5 ++ turns 1 false ++ [.outside (.loop pipe false)] ++ turns 8 false ++ ending

/-- The record is written and the last `sync` called when the loop is past the queue. -/
def overtaken : List Label := session ++ turns 5 false ++ commands 5 ++ turns 4 false ++ ending

def reached (schedule : List Label) : Replay :=
  (run (step .plain ⟨str "c",false,false,none⟩) schedule (start (some capture) true)).state

theorem successful_replay_delivered_capture :
    (reached (replayed [])).stage = .returned 0 ∧ (reached (replayed [])).sent = 1 ∧
      1 = (carried .outbound (reached (replayed [])).worker.wire).length := by
  have returned : (reached (replayed [])).stage = .returned 0 := by decide +kernel
  have sent : (reached (replayed [])).sent = 1 := by decide +kernel
  have delivered := successful_replay_delivered .plain ⟨str "c",false,false,none⟩ (some capture) true (replayed [])
    (by decide +kernel) returned (by decide +kernel)
  exact ⟨returned,sent,sent ▸ delivered.1⟩

/-- A record that the pipe refuses is reported as replayed; one that the last heartbeat
overtakes is confirmed before it is sent. -/
theorem replay_confirms_unsent :
    Captures .plain capture [⟨Worker.publication,0⟩] ∧
    ((reached (replayed [false])).stage = .returned 0 ∧ (reached (replayed [false])).interrupted = false ∧
      (reached (replayed [false])).sent = 1 ∧ carried .outbound (reached (replayed [false])).worker.wire = []) ∧
    ((reached overtaken).stage = .returned 0 ∧ (reached overtaken).interrupted = false ∧
      .heartbeat (reached overtaken).confirmed ∈ (reached overtaken).worker.wire ∧
      carried .outbound ((reached overtaken).worker.wire.takeWhile (· ≠ .heartbeat (reached overtaken).confirmed)) = []) := by
  refine ⟨captures_capture,?_,?_⟩ <;> decide +kernel

end Replay

end Wisp
