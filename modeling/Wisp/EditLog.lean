import Mathlib.Data.Finset.Card

/-! A finite set maintained by a log of insertions and removals. The log is read
from any starting set: what a suffix of it rebuilds from nothing is part of what
the whole log built. -/
namespace EditLog

inductive Edit (α : Type) where
  | add (x : α)
  | drop (x : α)
  deriving DecidableEq, Repr

variable {α : Type} [DecidableEq α]

def Edit.apply : Edit α → Finset α → Finset α
  | .add x, held => insert x held
  | .drop x, held => held.erase x

def replay (base : Finset α) (log : List (Edit α)) : Finset α :=
  log.foldl (fun held edit => edit.apply held) base

@[simp] theorem replay_nil (base : Finset α) : replay base [] = base := rfl

@[simp] theorem replay_cons (base : Finset α) (edit : Edit α) (log : List (Edit α)) :
    replay base (edit :: log) = replay (edit.apply base) log := rfl

@[simp] theorem replay_append (base : Finset α) (log later : List (Edit α)) :
    replay base (log ++ later) = replay (replay base log) later := List.foldl_append

theorem apply_mono (edit : Edit α) {small large : Finset α} (subset : small ⊆ large) :
    edit.apply small ⊆ edit.apply large := by
  cases edit with
  | add x => exact Finset.insert_subset_insert x subset
  | drop x => exact Finset.erase_subset_erase x subset

theorem replay_mono (log : List (Edit α)) {small large : Finset α} (subset : small ⊆ large) :
    replay small log ⊆ replay large log := by
  induction log generalizing small large with
  | nil => exact subset
  | cons edit rest ih => exact ih (apply_mono edit subset)

theorem replay_suffix (base : Finset α) (front rest : List (Edit α)) :
    replay ∅ rest ⊆ replay base (front ++ rest) := by
  rw [replay_append]
  exact replay_mono rest (Finset.empty_subset _)

theorem replay_adds (base : Finset α) (xs : List α) :
    replay base (xs.map Edit.add) = base ∪ xs.toFinset := by
  induction xs generalizing base with
  | nil => simp
  | cons x rest ih =>
    rw [List.map_cons,replay_cons,ih,List.toFinset_cons,Edit.apply,Finset.insert_union,
      Finset.union_insert]

theorem replay_subset (log : List (Edit α)) {base whole : Finset α} (start : base ⊆ whole)
    (added : ∀ x, Edit.add x ∈ log → x ∈ whole) : replay base log ⊆ whole := by
  induction log generalizing base with
  | nil => exact start
  | cons edit rest ih =>
    refine ih ?_ fun x member => added x (List.mem_cons_of_mem _ member)
    cases edit with
    | add x => exact Finset.insert_subset (added x List.mem_cons_self) start
    | drop x => exact (Finset.erase_subset x base).trans start

theorem apply_insert_subset (edit : Edit α) (base : Finset α) (x : α) :
    edit.apply (insert x base) ⊆ insert x (edit.apply base) := by
  cases edit with
  | add y => exact (Finset.insert_comm y x base).le
  | drop y =>
    intro z member
    obtain ⟨other,here⟩ := Finset.mem_erase.mp member
    rcases Finset.mem_insert.mp here with rfl | held
    · exact Finset.mem_insert_self _ _
    · exact Finset.mem_insert_of_mem (Finset.mem_erase.mpr ⟨other,held⟩)

/-- A log that only adds. -/
def Adds (log : List (Edit α)) : Prop := ∀ edit ∈ log, ∃ x, edit = .add x

/-- An edit taken ahead of additions leaves no less. -/
theorem apply_replay_adds (edit : Edit α) {log : List (Edit α)} (adds : Adds log) (base : Finset α) :
    edit.apply (replay base log) ⊆ replay (edit.apply base) log := by
  induction log generalizing base with
  | nil => exact subset_rfl
  | cons first rest ih =>
    obtain ⟨x,rfl⟩ := adds first List.mem_cons_self
    refine (ih (fun edit member => adds edit (List.mem_cons_of_mem _ member)) _).trans (replay_mono rest ?_)
    exact apply_insert_subset edit base x

theorem replay_ahead_of_adds (log : List (Edit α)) {later : List (Edit α)} (adds : Adds later) (base : Finset α) :
    replay (replay base later) log ⊆ replay (replay base log) later := by
  induction log generalizing base with
  | nil => exact subset_rfl
  | cons edit rest ih => exact (replay_mono rest (apply_replay_adds edit adds base)).trans (ih _)

theorem subset_replay_adds {log : List (Edit α)} (adds : Adds log) (base : Finset α) : base ⊆ replay base log := by
  induction log generalizing base with
  | nil => exact subset_rfl
  | cons first rest ih =>
    obtain ⟨x,rfl⟩ := adds first List.mem_cons_self
    exact (Finset.subset_insert x base).trans (ih (fun edit member => adds edit (List.mem_cons_of_mem _ member)) _)

/-- An element there from the start makes a difference only to itself. -/
theorem replay_insert_subset (log : List (Edit α)) (base : Finset α) (x : α) :
    replay (insert x base) log ⊆ insert x (replay base log) := by
  induction log generalizing base with
  | nil => exact subset_rfl
  | cons edit rest ih => exact (replay_mono rest (apply_insert_subset edit base x)).trans (ih _)

/-- And none where the log removes it. -/
theorem replay_insert_dropped {log : List (Edit α)} {x : α} (dropped : .drop x ∈ log) (base : Finset α) :
    replay (insert x base) log = replay base log := by
  induction log generalizing base with
  | nil => cases dropped
  | cons edit rest ih =>
    rcases List.mem_cons.mp dropped with rfl | later
    · simp only [replay_cons,Edit.apply,Finset.erase_insert_eq_erase]
    · cases edit with
      | add y =>
        simp only [replay_cons,Edit.apply]
        rw [Finset.insert_comm]
        exact ih later _
      | drop y =>
        simp only [replay_cons,Edit.apply]
        by_cases same : x = y
        · rw [same,Finset.erase_insert_eq_erase]
        · rw [Finset.erase_insert_of_ne same]
          exact ih later _

variable {limit : Nat} {base : Finset α} {log more front rest : List (Edit α)} {edit : Edit α}

/-- The set stays within a bound at every moment of the replay. -/
def Bounded (limit : Nat) (base : Finset α) (log : List (Edit α)) : Prop :=
  ∀ front, front <+: log → (replay base front).card ≤ limit

theorem Bounded.start (bounded : Bounded limit base log) : base.card ≤ limit :=
  bounded [] List.nil_prefix

theorem Bounded.tail (bounded : Bounded limit base (edit :: log)) :
    Bounded limit (edit.apply base) log := by
  intro front initial
  exact bounded (edit :: front) (List.cons_prefix_cons.mpr ⟨rfl,initial⟩)

theorem Bounded.earlier (bounded : Bounded limit base (log ++ more)) : Bounded limit base log :=
  fun _ initial => bounded _ (initial.trans (List.prefix_append log more))

theorem Bounded.shrink (bounded : Bounded limit base (front ++ rest)) : Bounded limit ∅ rest := by
  intro part initial
  have whole := bounded (front ++ part) (List.prefix_append_right_inj front |>.mpr initial)
  exact (Finset.card_le_card (replay_suffix base front part)).trans whole

theorem Bounded.append (bounded : Bounded limit base log)
    (later : ∀ front, front <+: more → (replay (replay base log) front).card ≤ limit) :
    Bounded limit base (log ++ more) := by
  intro front initial
  obtain ⟨rest,split⟩ := initial
  rcases List.append_eq_append_iff.mp split with ⟨gap,rfl,_⟩ | ⟨part,rfl,rfl⟩
  · exact bounded front (List.prefix_append front gap)
  · rw [replay_append]
    exact later part (List.prefix_append part rest)

end EditLog
