import Wisp.EditLog

/-! A finite map maintained by a log of assignments, read one key at a time. What a log
makes of a key is the last it says of it, whatever was held before; which keys are held
is the edit log that the assignments make. -/
namespace AssignLog

open EditLog

/-- A key is given a value, or with `none` loses the one it has. -/
structure Assign (κ ν : Type) where
  key : κ
  value : Option ν
  deriving DecidableEq, Repr

variable {κ ν : Type} [DecidableEq κ]

def Assign.edit (assign : Assign κ ν) : Edit κ :=
  if assign.value.isSome then .add assign.key else .drop assign.key

def settle (base : Option ν) (log : List (Assign κ ν)) (key : κ) : Option ν :=
  log.foldl (fun held assign => if assign.key = key then assign.value else held) base

variable (base : Option ν) (log later : List (Assign κ ν)) (key : κ)

@[simp] theorem settle_nil : settle base [] key = base := rfl

@[simp] theorem settle_cons (assign : Assign κ ν) :
    settle base (assign :: log) key = settle (if assign.key = key then assign.value else base) log key := rfl

@[simp] theorem settle_append : settle base (log ++ later) key = settle (settle base log key) later key :=
  List.foldl_append

/-- The keys held are those that the edit log holds. -/
theorem settle_isSome {held : Finset κ} (agree : base.isSome = true ↔ key ∈ held) :
    (settle base log key).isSome = true ↔ key ∈ replay held (log.map Assign.edit) := by
  induction log generalizing base held with
  | nil => exact agree
  | cons assign rest ih =>
    rw [settle_cons,List.map_cons,replay_cons]
    refine ih _ ?_
    by_cases here : assign.key = key
    · cases given : assign.value <;> simp [Assign.edit,Edit.apply,here,given]
    · have other : key ≠ assign.key := fun same => here same.symm
      cases given : assign.value <;> simp [Assign.edit,Edit.apply,here,other,given,agree]

/-- A log that gives every key of a list its value settles those keys and no other. -/
theorem settle_map (keys : List κ) (value : κ → Option ν) :
    settle base (keys.map fun key => ⟨key,value key⟩) key = if key ∈ keys then value key else base := by
  induction keys generalizing base with
  | nil => rfl
  | cons first rest ih =>
    rw [List.map_cons,settle_cons,ih]
    by_cases later : key ∈ rest
    · simp [later]
    · by_cases here : first = key
      · simp [here]
      · have other : key ≠ first := fun same => here same.symm
        simp [later,here,other]

end AssignLog
