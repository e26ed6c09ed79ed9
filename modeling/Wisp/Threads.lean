import Mathlib.Logic.Function.Basic
import Wisp.Flow

/-! Threads that take mutexes, start each other, tell each other to stop and wait for each
other to end. A thread performs one operation after the other, each a script of such actions;
told to stop, it performs a last one and is done. A discipline on the scripts, checked one
script at a time, keeps the threads from ever waiting for each other in a circle. -/
namespace Threads

open Transition

variable {μ τ ω : Type}

inductive Act (μ τ : Type) where
  | acquire (mutex : μ)
  | release (mutex : μ)
  | start (thread : τ)
  | tell (thread : τ)
  | join (thread : τ)
  deriving DecidableEq, Repr

abbrev Script (μ τ : Type) := List (Act μ τ)

structure Program (μ τ ω : Type) where
  actor : ω → τ
  script : ω → Script μ τ
  /-- What a thread does on its way out. -/
  epilogue : τ → Script μ τ

structure System (μ τ : Type) where
  code : τ → Script μ τ
  holder : μ → Option τ
  started : τ → Bool
  told : τ → Bool
  leaving : τ → Bool

/-- A scope that holds the mutex. -/
def locked (mutex : μ) (body : Script μ τ) : Script μ τ := .acquire mutex :: (body ++ [.release mutex])

inductive Label (τ ω : Type) where
  | enter (op : ω)
  | advance (thread : τ)

/-- Not started, or out of its loop and through. -/
def System.ended (t : τ) (s : System μ τ) : Bool := !s.started t || (s.leaving t && (s.code t).isEmpty)

section Step

variable [DecidableEq μ] [DecidableEq τ]

/-- A move is reported by the thread that made it; who has to wait reports nothing. -/
def step (P : Program μ τ ω) : Label τ ω → System μ τ → Outcome (System μ τ) τ
  | .enter op, s =>
    let t := P.actor op
    if s.started t && !s.told t && !s.leaving t && (s.code t).isEmpty then
      ⟨{ s with code := Function.update s.code t (P.script op) },[]⟩
    else ⟨s,[]⟩
  | .advance t, s =>
    match s.code t with
    | [] =>
      if s.started t && s.told t && !s.leaving t then
        ⟨{ s with
            leaving := Function.update s.leaving t true
            code := Function.update s.code t (P.epilogue t) },[t]⟩
      else ⟨s,[]⟩
    | .acquire mutex :: rest =>
      if s.holder mutex = none then
        ⟨{ s with
            code := Function.update s.code t rest
            holder := Function.update s.holder mutex (some t) },[t]⟩
      else ⟨s,[]⟩
    | .release mutex :: rest =>
      ⟨{ s with code := Function.update s.code t rest, holder := Function.update s.holder mutex none },[t]⟩
    | .start thread :: rest =>
      ⟨{ s with code := Function.update s.code t rest, started := Function.update s.started thread true },[t]⟩
    | .tell thread :: rest =>
      ⟨{ s with code := Function.update s.code t rest, told := Function.update s.told thread true },[t]⟩
    | .join thread :: rest =>
      if s.ended thread then ⟨{ s with code := Function.update s.code t rest },[t]⟩ else ⟨s,[]⟩

def Moves (P : Program μ τ ω) (t : τ) (s : System μ τ) : Prop := (step P (.advance t) s).events = [t]

end Step

section Discipline

variable [DecidableEq μ] [DecidableEq τ] (rank : μ → Nat) (grade : τ → Nat) (t : τ)

/-- Runs a script of thread `t` by the rules: mutexes are taken in rising rank and given back
in turn, and a thread is joined with no mutex held, after it was told to stop, and only if it
is of a lower grade. What was told and is held at the end, or `none` at the first offence. -/
def check : List τ → List μ → Script μ τ → Option (List τ × List μ)
  | told,held,[] => some (told,held)
  | told,held,.acquire mutex :: rest =>
    if ∀ other ∈ held, rank other < rank mutex then check told (mutex :: held) rest else none
  | told,held,.release mutex :: rest =>
    match held with
    | [] => none
    | top :: held => if top = mutex then check told held rest else none
  | told,held,.start _ :: rest => check told held rest
  | told,held,.tell thread :: rest => check (thread :: told) held rest
  | told,held,.join thread :: rest =>
    if held = [] ∧ thread ∈ told ∧ grade thread < grade t then check told held rest else none

/-- By the rules, in whatever state it is run with these mutexes held, and back with them. -/
def Balanced (held : List μ) (script : Script μ τ) : Prop :=
  ∀ told, ∃ later, (∀ thread ∈ told, thread ∈ later) ∧ check rank grade t told held script = some (later,held)

variable {rank grade t} {held : List μ} {first second : Script μ τ}

theorem check_append (told : List τ) (held : List μ) (first second : Script μ τ) :
    check rank grade t told held (first ++ second) =
      (check rank grade t told held first).bind fun next => check rank grade t next.1 next.2 second := by
  induction first generalizing told held with
  | nil => rfl
  | cons act rest ih =>
    cases act with
    | acquire mutex =>
      rw [List.cons_append,check,check]
      split
      · exact ih told _
      · rfl
    | release mutex =>
      cases held with
      | nil => rfl
      | cons top held =>
        rw [List.cons_append,check,check]
        split
        · exact ih told _
        · rfl
    | start thread => exact ih told _
    | tell thread => exact ih _ _
    | join thread =>
      rw [List.cons_append,check,check]
      split
      · exact ih told _
      · rfl

theorem Balanced.nil : Balanced rank grade t held [] := fun told => ⟨told,fun _ member => member,rfl⟩

theorem Balanced.append (balanced : Balanced rank grade t held first) (follows : Balanced rank grade t held second) :
    Balanced rank grade t held (first ++ second) := by
  intro told
  obtain ⟨middle,keeps,passes⟩ := balanced told
  obtain ⟨later,keeps',passes'⟩ := follows middle
  exact ⟨later,fun thread member => keeps' thread (keeps thread member),by rw [check_append,passes]; exact passes'⟩

theorem Balanced.flatMap {α : Type} {script : α → Script μ τ} (each : ∀ x, Balanced rank grade t held (script x))
    (xs : List α) : Balanced rank grade t held (xs.flatMap script) := by
  induction xs with
  | nil => exact .nil
  | cons x rest ih => exact (each x).append ih

theorem Balanced.locked {mutex : μ} (higher : ∀ other ∈ held, rank other < rank mutex)
    (balanced : Balanced rank grade t (mutex :: held) first) : Balanced rank grade t held (locked mutex first) := by
  intro told
  obtain ⟨later,keeps,passes⟩ := balanced told
  refine ⟨later,keeps,?_⟩
  rw [Threads.locked,check,if_pos higher,check_append,passes]
  exact if_pos rfl

theorem Balanced.start (thread : τ) : Balanced rank grade t held [.start thread] :=
  fun told => ⟨told,fun _ member => member,rfl⟩

theorem Balanced.tell (thread : τ) : Balanced rank grade t held [.tell thread] :=
  fun told => ⟨thread :: told,fun _ member => List.mem_cons_of_mem thread member,rfl⟩

/-- Telling a thread to stop, and waiting for it. -/
theorem Balanced.join {thread : τ} (lower : grade thread < grade t) (balanced : Balanced rank grade t [] first) :
    Balanced rank grade t [] (.tell thread :: (first ++ [.join thread])) := by
  intro told
  obtain ⟨later,keeps,passes⟩ := balanced (thread :: told)
  refine ⟨later,fun other member => keeps other (List.mem_cons_of_mem thread member),?_⟩
  rw [check,check_append,passes]
  exact if_pos ⟨rfl,keeps thread List.mem_cons_self,lower⟩

end Discipline

theorem holder_acquire [DecidableEq μ] {s : System μ τ} {mutex : μ} {t u : τ} (free : s.holder mutex = none) (other : μ) :
    Function.update s.holder mutex (some t) other = some u ↔ other = mutex ∧ u = t ∨ s.holder other = some u := by
  by_cases same : other = mutex
  · subst same
    simp [free,eq_comm]
  · simp [same]

theorem holder_release [DecidableEq μ] {s : System μ τ} {mutex : μ} {t u : τ} (mine : s.holder mutex = some t) (other : μ) :
    Function.update s.holder mutex none other = some u ↔ s.holder other = some u ∧ other ≠ mutex := by
  by_cases same : other = mutex
  · subst same
    simp
  · simp [same]

theorem told_tell [DecidableEq τ] {s : System μ τ} (thread other : τ) (heard : s.told other = true) : Function.update s.told thread true other = true := by
  by_cases same : other = thread
  · rw [same,Function.update_self]
  · rw [Function.update_of_ne same,heard]

section Progress

variable [DecidableEq μ] [DecidableEq τ] (rank : μ → Nat) (grade : τ → Nat)

/-- Every script is by the rules, and begins and ends with nothing held. -/
structure Program.Orderly (P : Program μ τ ω) : Prop where
  script : ∀ op, Balanced rank grade (P.actor op) [] (P.script op)
  epilogue : ∀ t, Balanced rank grade t [] (P.epilogue t)

/-- What is left of a thread's script is by the rules, given what it told and what it holds. -/
structure Placed (t : τ) (s : System μ τ) (told : List τ) (held : List μ) : Prop where
  passes : ∃ later, check rank grade t told held (s.code t) = some (later,[])
  told : ∀ thread ∈ told, s.told thread = true
  holds : ∀ mutex, s.holder mutex = some t ↔ mutex ∈ held
  nodup : held.Nodup

def Orderly (s : System μ τ) : Prop := ∀ t, ∃ told held, Placed rank grade t s told held

variable {rank grade} {P : Program μ τ ω} {s s' : System μ τ} {t u : τ} {told : List τ} {held : List μ}
  {mutex : μ} {rest : Script μ τ}

/-- A thread's move keeps the others in place if it does not touch what they hold. -/
theorem Orderly.moves (orderly : Orderly rank grade s) {later : List τ} (code : s'.code = Function.update s.code t rest)
    (passes : check rank grade t told held rest = some (later,[])) (tells : ∀ thread ∈ told, s'.told thread = true)
    (heard : ∀ thread, s.told thread = true → s'.told thread = true)
    (holds : ∀ mutex, s'.holder mutex = some t ↔ mutex ∈ held)
    (others : ∀ u, u ≠ t → ∀ mutex, s'.holder mutex = some u ↔ s.holder mutex = some u) (nodup : held.Nodup) :
    Orderly rank grade s' := by
  intro u
  by_cases same : u = t
  · subst same
    exact ⟨told,held,⟨later,by rw [code,Function.update_self]; exact passes⟩,tells,holds,nodup⟩
  · obtain ⟨told,held,placed⟩ := orderly u
    refine ⟨told,held,?_,fun thread member => heard thread (placed.told thread member),
      fun mutex => (others u same mutex).trans (placed.holds mutex),placed.nodup⟩
    rw [code,Function.update_of_ne same]
    exact placed.passes

/-- A script is begun with nothing held. -/
theorem Orderly.begins (orderly : Orderly rank grade s) (done : s.code t = []) (balanced : Balanced rank grade t [] rest)
    (code : s'.code = Function.update s.code t rest) (holder : s'.holder = s.holder) (same : s'.told = s.told) :
    Orderly rank grade s' := by
  obtain ⟨told,held,placed⟩ := orderly t
  obtain ⟨later,passes⟩ := placed.passes
  rw [done] at passes
  obtain ⟨-,rfl⟩ := Prod.mk.inj (Option.some.inj passes)
  obtain ⟨last,-,ends⟩ := balanced []
  refine orderly.moves code ends nofun (fun thread heard => by rwa [same]) ?_ (fun _ _ _ => by rw [holder]) List.nodup_nil
  rw [holder]
  exact placed.holds

theorem step_orderly (ordered : P.Orderly rank grade) (orderly : Orderly rank grade s) (label : Label τ ω) :
    Orderly rank grade (step P label s).state := by
  cases label with
  | enter op =>
    rw [step]
    split
    next ready =>
      simp only [Bool.and_eq_true,List.isEmpty_iff] at ready
      exact orderly.begins ready.2 (ordered.script op) rfl rfl rfl
    · exact orderly
  | advance t =>
    obtain ⟨told,held,placed⟩ := orderly t
    obtain ⟨later,passes⟩ := placed.passes
    rw [step]
    split
    next done =>
      split
      · exact orderly.begins done (ordered.epilogue t) rfl rfl rfl
      · exact orderly
    next mutex rest next =>
      split
      next free =>
        rw [next,check] at passes
        split at passes
        next higher =>
          refine orderly.moves rfl passes placed.told (fun _ heard => heard) (fun other => ?_) (fun u apart other => ?_)
            (List.nodup_cons.mpr ⟨fun member => Nat.lt_irrefl _ (higher mutex member),placed.nodup⟩)
          · rw [holder_acquire free,placed.holds,List.mem_cons]
            simp
          · rw [holder_acquire free]
            simp [apart]
        · cases passes
      · exact orderly
    next mutex rest next =>
      rw [next] at passes
      cases held with
      | nil => cases passes
      | cons top held =>
        rw [check] at passes
        split at passes
        next same =>
          subst same
          obtain ⟨apart,nodup⟩ := List.nodup_cons.mp placed.nodup
          have mine : s.holder top = some t := (placed.holds top).mpr List.mem_cons_self
          refine orderly.moves rfl passes placed.told (fun _ heard => heard) (fun other => ?_) (fun u different other => ?_) nodup
          · rw [holder_release mine,placed.holds,List.mem_cons]
            refine ⟨fun left => left.1.resolve_left left.2,fun member => ⟨.inr member,?_⟩⟩
            rintro rfl
            exact apart member
          · rw [holder_release mine]
            refine ⟨fun left => left.1,fun holds => ⟨holds,?_⟩⟩
            rintro rfl
            exact different (Option.some.inj (holds.symm.trans mine))
        · cases passes
    next thread rest next =>
      rw [next,check] at passes
      exact orderly.moves rfl passes placed.told (fun _ heard => heard) placed.holds (fun _ _ _ => Iff.rfl) placed.nodup
    next thread rest next =>
      rw [next,check] at passes
      refine orderly.moves rfl passes (fun other member => ?_) (told_tell thread) placed.holds (fun _ _ _ => Iff.rfl) placed.nodup
      rcases List.mem_cons.mp member with rfl | before
      · exact Function.update_self ..
      · exact told_tell thread other (placed.told other before)
    next thread rest next =>
      split
      · rw [next,check] at passes
        split at passes
        · exact orderly.moves rfl passes placed.told (fun _ heard => heard) placed.holds (fun _ _ _ => Iff.rfl) placed.nodup
        · cases passes
      · exact orderly

/-- A thread in the middle of a script moves, unless it waits for a mutex or for a thread. -/
theorem moves_or_waits (busy : s.code t ≠ []) : Moves P t s ∨
    (∃ mutex rest u, s.code t = .acquire mutex :: rest ∧ s.holder mutex = some u) ∨
    ∃ u rest, s.code t = .join u :: rest ∧ s.ended u = false := by
  unfold Moves
  rw [step]
  split
  next done => exact absurd done busy
  next mutex rest next =>
    split
    · exact .inl rfl
    next taken =>
      obtain ⟨u,holds⟩ := Option.ne_none_iff_exists'.mp taken
      exact .inr (.inl ⟨mutex,rest,u,next,holds⟩)
  · exact .inl rfl
  · exact .inl rfl
  · exact .inl rfl
  next u rest next =>
    split
    · exact .inl rfl
    next waits => exact .inr (.inr ⟨u,rest,next,by simpa using waits⟩)

/-- Who waits for a mutex waits for a thread that moves, or that waits for a mutex of higher rank. -/
theorem mutex_frees (orderly : Orderly rank grade s) {top : Nat} (bounded : ∀ mutex, rank mutex ≤ top)
    (holds : s.holder mutex = some u) : ∃ v, Moves P v s := by
  induction gap : top - rank mutex using Nat.strong_induction_on generalizing mutex u with
  | _ gap ih =>
    obtain ⟨told,held,placed⟩ := orderly u
    obtain ⟨later,passes⟩ := placed.passes
    have member := (placed.holds mutex).mp holds
    have busy : s.code u ≠ [] := by
      intro done
      rw [done] at passes
      rw [(Prod.mk.inj (Option.some.inj passes)).2] at member
      cases member
    rcases moves_or_waits (P := P) busy with moves | ⟨next,rest,v,code,taken⟩ | ⟨v,rest,code,-⟩
    · exact ⟨u,moves⟩
    · rw [code,check] at passes
      split at passes
      next higher =>
        have rises := higher mutex member
        have most := bounded next
        exact ih _ (by omega) taken rfl
      · cases passes
    · rw [code,check] at passes
      split at passes
      next rules =>
        rw [rules.1] at member
        cases member
      · cases passes

/-- Who waits for a thread to end waits for one of a lower grade, which was told to. -/
theorem thread_ends (orderly : Orderly rank grade s) {top : Nat} (bounded : ∀ mutex, rank mutex ≤ top)
    (waits : s.code t = .join u :: rest) (running : s.ended u = false) : ∃ v, Moves P v s := by
  induction height : grade t using Nat.strong_induction_on generalizing t u rest with
  | _ height ih =>
    subst height
    obtain ⟨told,held,placed⟩ := orderly t
    obtain ⟨later,passes⟩ := placed.passes
    rw [waits,check] at passes
    split at passes
    next rules =>
      by_cases done : s.code u = []
      · refine ⟨u,?_⟩
        have heard := placed.told u rules.2.1
        have out : s.started u = true ∧ s.leaving u = false := by simpa [System.ended,done] using running
        simp [Moves,step,done,heard,out]
      · rcases moves_or_waits (P := P) done with moves | ⟨mutex,later,v,code,taken⟩ | ⟨v,later,code,runs⟩
        · exact ⟨u,moves⟩
        · exact mutex_frees orderly bounded taken
        · exact ih _ rules.2.2 code runs rfl
    · cases passes

/-- As long as some thread is in the middle of something, some thread moves. -/
theorem exists_moves (orderly : Orderly rank grade s) {top : Nat} (bounded : ∀ mutex, rank mutex ≤ top)
    (busy : s.code t ≠ []) : ∃ u, Moves P u s := by
  rcases moves_or_waits (P := P) busy with moves | ⟨mutex,rest,u,-,taken⟩ | ⟨u,rest,code,running⟩
  · exact ⟨t,moves⟩
  · exact mutex_frees orderly bounded taken
  · exact thread_ends orderly bounded code running

/-- A thread that was told to stop and cannot go on is through. -/
theorem ended_of_told {t : τ} (still : ¬ Moves P t s) (done : s.code t = []) (told : s.told t = true) : s.ended t = true := by
  rw [System.ended,done]
  cases started : s.started t with
  | false => rfl
  | true =>
    cases leaving : s.leaving t with
    | true => rfl
    | false =>
      refine absurd ?_ still
      rw [Moves,step,done]
      simp [started,told,leaving]

/-- The actions a thread has left, those on its way out included. -/
def left (P : Program μ τ ω) (s : System μ τ) (t : τ) : Nat :=
  (s.code t).length + if s.leaving t then 0 else (P.epilogue t).length + 1

def work (P : Program μ τ ω) (every : List τ) (s : System μ τ) : Nat := tally (left P s) every

/-- A move is one action less. -/
theorem advance_work {every : List τ} (nodup : every.Nodup) (complete : ∀ t, t ∈ every) (t : τ) (s : System μ τ) :
    work P every (step P (.advance t) s).state + (step P (.advance t) s).events.length = work P every s := by
  have moved {s' : System μ τ} (others : ∀ u, u ≠ t → left P s' u = left P s u) (less : left P s' t + 1 = left P s t) :
      work P every s' + 1 = work P every s := by
    have change := tally_update (left P s) (left P s') nodup (complete t) others
    unfold work
    omega
  have consumes {s' : System μ τ} {act : Act μ τ} {rest : Script μ τ} (next : s.code t = act :: rest)
      (code : s'.code = Function.update s.code t rest) (leaving : s'.leaving = s.leaving) :
      work P every s' + 1 = work P every s := by
    refine moved (fun u apart => ?_) ?_
    · rw [left,left,code,leaving,Function.update_of_ne apart]
    · rw [left,left,code,leaving,Function.update_self,next,List.length_cons]
      omega
  rw [step]
  split
  next done =>
    split
    next ready =>
      simp only [Bool.and_eq_true,Bool.not_eq_true'] at ready
      refine moved (fun u apart => ?_) ?_
      · simp [left,apart]
      · simp [left,done,ready.2]
    · rfl
  next mutex rest next =>
    split
    · exact consumes next rfl rfl
    · rfl
  next mutex rest next => exact consumes next rfl rfl
  next thread rest next => exact consumes next rfl rfl
  next thread rest next => exact consumes next rfl rfl
  next thread rest next =>
    split
    · exact consumes next rfl rfl
    · rfl

/-- However the threads are scheduled, they make no more moves than there are actions left. -/
theorem run_work {every : List τ} (nodup : every.Nodup) (complete : ∀ t, t ∈ every) (schedule : List τ) (s : System μ τ) :
    work P every (run (step P) (schedule.map .advance) s).state +
      (run (step P) (schedule.map .advance) s).events.length = work P every s := by
  induction schedule generalizing s with
  | nil => rfl
  | cons t rest ih =>
    have first := advance_work (P := P) nodup complete t s
    have later := ih (step P (.advance t) s).state
    rw [List.map_cons,run,List.length_append]
    dsimp only
    omega

theorem run_orderly (ordered : P.Orderly rank grade) (orderly : Orderly rank grade s) (labels : List (Label τ ω)) :
    Orderly rank grade (run (step P) labels s).state :=
  run_preserves (step P) (Orderly rank grade) (fun _ label keeps => step_orderly ordered keeps label) labels s orderly

end Progress

end Threads
