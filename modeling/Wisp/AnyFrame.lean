import Mathlib.Tactic.Ring
import Wisp.MessageKeys
import Wisp.ProtoWire

/-! A payload packed in a `google.protobuf.Any`, and the reader that finds its two fields
in place. The reader's places are counted in the payload; a byte read behind the payload
would be an overrun. -/
namespace Wisp

namespace AnyFrame

def typeUrlPrefix : Str := str "type.googleapis.com/"

/-- A part of the payload. -/
structure View where
  start : Nat := 0
  size : Nat := 0
  deriving DecidableEq, Repr

def View.content (view : View) (raw : Str) : Str := (raw.drop view.start).take view.size

def View.Within (view : View) (raw : Str) : Prop := view.start + view.size ≤ raw.length

/-- Why no message is found. -/
inductive Failure where
  | malformed
  | overrun
  | endless
  deriving DecidableEq, Repr

/-- The only way to a byte of the payload. -/
def byteAt (raw : Str) (pos : Nat) : Except Failure UInt8 :=
  match raw[pos]? with
  | none => .error .overrun
  | some byte => .ok byte

/-- The turns that are left of the loop over the shifts. -/
def readVarintFrom (raw : Str) : Nat → Nat → Nat → UInt64 → Except Failure (UInt64 × Nat)
  | 0, _, _, _ => .error .malformed
  | turns + 1, shift, pos, out =>
    if pos ≥ raw.length then .error .malformed
    else do
      let byte ← byteAt raw pos
      let out := out ||| (byte &&& 0x7f).toUInt64 <<< UInt64.ofNat shift
      if byte &&& 0x80 = 0 then return (out,pos + 1)
      else readVarintFrom raw turns (shift + 7) (pos + 1) out

/-- The shifts 0, 7, and so on below 64 are ten. -/
def readVarint (raw : Str) (pos : Nat) : Except Failure (UInt64 × Nat) := readVarintFrom raw 10 0 pos 0

/-- The unsigned `raw.size() - pos`; past the end it would wrap. -/
def remaining (raw : Str) (pos : Nat) : Nat :=
  if pos ≤ raw.length then raw.length - pos else raw.length + 2 ^ 64 - pos

structure Cursor where
  pos : Nat := 0
  typeUrl : View := {}
  valueBytes : View := {}

/-- One turn of the loop over the fields. -/
def readField (raw : Str) (c : Cursor) : Except Failure Cursor := do
  let (key,pos) ← readVarint raw c.pos
  let fieldNumber := key >>> 3
  match (key &&& 7).toNat with
  | 0 =>
    let (_,pos) ← readVarint raw pos
    return { c with pos }
  | 1 => if remaining raw pos < 8 then throw .malformed else return { c with pos := pos + 8 }
  | 2 =>
    let (len,pos) ← readVarint raw pos
    if len.toNat > remaining raw pos then throw .malformed
    else
      let field : View := ⟨pos,len.toNat⟩
      let pos := pos + len.toNat
      if fieldNumber = 1 then return { c with pos, typeUrl := field }
      else if fieldNumber = 2 then return { c with pos, valueBytes := field }
      else return { c with pos }
  | 5 => if remaining raw pos < 4 then throw .malformed else return { c with pos := pos + 4 }
  | _ => throw .malformed

def readFields (raw : Str) : Nat → Cursor → Except Failure Cursor
  | 0, _ => throw .endless
  | turns + 1, c => if c.pos < raw.length then do readFields raw turns (← readField raw c) else return c

/-- Each turn takes a byte at least, so there is one turn for each byte and one to see the end. -/
def read (raw : Str) : Except Failure (View × View) := do
  let c ← readFields raw (raw.length + 1) {}
  return (c.typeUrl,c.valueBytes)

/-- The type's name and the packed bytes, both empty for what is not an Any. -/
def typeNameOf (payload : Str) : Str × Str :=
  match read payload with
  | .error _ => ([],[])
  | .ok (typeUrl,value) =>
    if (typeUrl.content payload).take typeUrlPrefix.length ≠ typeUrlPrefix then ([],[])
    else ((typeUrl.content payload).drop typeUrlPrefix.length,value.content payload)

theorem and_high (byte : UInt8) : byte &&& 0x80 = 0 ↔ byte.toNat < 128 := by
  have each : ∀ n < 256, n &&& 128 = 0 ↔ n < 128 := by decide +kernel
  rw [← UInt8.toNat_inj,UInt8.toNat_and]
  exact each byte.toNat byte.toNat_lt

theorem and_group (byte : UInt8) : (byte &&& 0x7f).toNat = byte.toNat % 128 := by
  rw [UInt8.toNat_and]
  exact Nat.and_two_pow_sub_one_eq_mod byte.toNat 7

/-- A group that comes in above the number read so far. -/
theorem or_group {v shift : Nat} (below : v < 2 ^ shift) (room : shift < 64) (byte : UInt8) :
    UInt64.ofNat v ||| (byte &&& 0x7f).toUInt64 <<< UInt64.ofNat shift =
      UInt64.ofNat (v + 2 ^ shift * (byte.toNat % 128)) := by
  have joined : v + 2 ^ shift * (byte.toNat % 128) = 2 ^ shift * (byte.toNat % 128) ||| v := by
    rw [Nat.add_comm]
    exact Nat.two_pow_add_eq_or_of_lt below _
  apply UInt64.toNat_inj.mp
  rw [UInt64.toNat_or,UInt64.toNat_shiftLeft,UInt8.toNat_toUInt64,and_group,UInt64.toNat_ofNat',UInt64.toNat_ofNat',
    UInt64.toNat_ofNat',joined,Nat.or_mod_two_pow,Nat.or_comm,Nat.shiftLeft_eq,Nat.mul_comm]
  have shifted : shift % 2 ^ 64 % 64 = shift := by omega
  rw [shifted]

theorem byteAt_lt {raw : Str} {pos : Nat} (inside : pos < raw.length) : byteAt raw pos = .ok raw[pos] := by
  rw [byteAt,List.getElem?_eq_getElem inside]

theorem readVarintFrom_eq (raw : Str) {turns shift v : Nat} (pos : Nat) (below : v < 2 ^ shift)
    (room : shift + 7 * turns ≤ 70) :
    readVarintFrom raw turns shift pos (UInt64.ofNat v) =
      match Varint.split turns (raw.drop pos) with
      | none => .error .malformed
      | some (front,_) => .ok (UInt64.ofNat (v + 2 ^ shift * Varint.value front),pos + front.length) := by
  induction turns generalizing shift v pos with
  | zero => rfl
  | succ turns ih =>
    rw [readVarintFrom]
    split
    next outside => rw [List.drop_eq_nil_of_le outside]; rfl
    next inside =>
      have inside := Nat.not_le.mp inside
      rw [byteAt_lt inside,List.drop_eq_getElem_cons inside,Varint.split]
      generalize raw[pos] = byte
      simp only [bind,Except.bind,or_group below (by omega),and_high]
      split
      next clear =>
        simp [Varint.value,pure,Except.pure]
      next high =>
        have above : v + 2 ^ shift * (byte.toNat % 128) < 2 ^ (shift + 7) := by
          have group : 2 ^ shift * (byte.toNat % 128 + 1) ≤ 2 ^ shift * 128 := Nat.mul_le_mul_left _ (by omega)
          rw [Nat.mul_add,Nat.mul_one] at group
          rw [Nat.pow_add]
          omega
        rw [ih (pos + 1) above (by omega)]
        cases Varint.split turns (raw.drop (pos + 1)) with
        | none => rfl
        | some found =>
          have whole : v + 2 ^ shift * (byte.toNat % 128) + 2 ^ (shift + 7) * Varint.value found.1 =
              v + 2 ^ shift * (byte.toNat % 128 + 128 * Varint.value found.1) := by ring
          simp only [Option.map_some,Varint.value,List.length_cons,whole]
          rw [Nat.add_assoc,Nat.add_comm 1]

theorem readVarint_eq (raw : Str) (pos : Nat) : readVarint raw pos =
    match Varint.split 10 (raw.drop pos) with
    | none => .error .malformed
    | some (front,_) => .ok (UInt64.ofNat (Varint.value front),pos + front.length) := by
  have whole := readVarintFrom_eq raw pos (Nat.two_pow_pos 0) (show 0 + 7 * 10 ≤ 70 from Nat.le_refl _)
  simp only [Nat.pow_zero,Nat.one_mul,Nat.zero_add] at whole
  exact whole

open ProtoWire

section

variable {raw rest : Str} {pos : Nat}

theorem readVarint_number {number : Number} (here : raw.drop pos = number.bytes ++ rest) :
    readVarint raw pos = .ok (UInt64.ofNat number.value,pos + number.bytes.length) := by
  rw [readVarint_eq,here,number.ends.split number.short]
  rfl

theorem readVarint_cases (raw : Str) (pos : Nat) : (∃ (number : Number) (rest : Str), raw.drop pos = number.bytes ++ rest) ∨
    readVarint raw pos = .error .malformed ∧ ∀ (number : Number) (rest : Str), raw.drop pos ≠ number.bytes ++ rest := by
  rw [readVarint_eq]
  cases split : Varint.split 10 (raw.drop pos) with
  | none =>
    refine .inr ⟨rfl,fun number rest here => ?_⟩
    rw [here,number.ends.split number.short] at split
    cases split
  | some front =>
    obtain ⟨ends,short,here⟩ := Varint.split_some split
    exact .inl ⟨⟨front.1,ends,short⟩,front.2,here⟩

theorem drop_behind {front : Str} (here : raw.drop pos = front ++ rest) : raw.drop (pos + front.length) = rest := by
  rw [← List.drop_drop,here,List.drop_left]

theorem length_behind {front : Str} (here : raw.drop pos = front ++ rest) (taken : front ≠ []) :
    raw.length = pos + front.length + rest.length := by
  have whole := congrArg List.length here
  have some := List.length_pos_iff.mpr taken
  rw [List.length_drop,List.length_append] at whole
  omega

/-- Behind what was found the difference does not wrap. -/
theorem remaining_behind {front : Str} (here : raw.drop pos = front ++ rest) (taken : front ≠ []) :
    remaining raw (pos + front.length) = rest.length := by
  have whole := length_behind here taken
  rw [remaining,if_pos (by omega)]
  omega

end

theorem low_bits (number : Number) : (UInt64.ofNat number.value &&& 7).toNat = number.word % 8 := by
  rw [UInt64.toNat_and,UInt64.toNat_ofNat']
  exact Nat.and_two_pow_sub_one_eq_mod _ 3

theorem field_number (number : Number) : (UInt64.ofNat number.value >>> 3).toNat = number.word / 8 := by
  rw [UInt64.toNat_shiftRight,UInt64.toNat_ofNat']
  exact Nat.shiftRight_eq_div_pow _ 3

/-- Where the reader stands behind a field. -/
def Cursor.after (c : Cursor) (field : Field) : Cursor :=
  let pos := c.pos + field.encode.length
  match field.content with
  | .delimited length bytes _ =>
    let view : View := ⟨c.pos + field.key.bytes.length + length.bytes.length,bytes.length⟩
    if field.number = 1 then { c with pos, typeUrl := view }
    else if field.number = 2 then { c with pos, valueBytes := view }
    else { c with pos }
  | _ => { c with pos }

section

variable {raw rest : Str} {c : Cursor}

theorem readField_field {field : Field} (here : raw.drop c.pos = field.encode ++ rest) :
    readField raw c = .ok (c.after field) := by
  obtain ⟨key,content,typed⟩ := field
  simp only [Field.encode,List.append_assoc] at here
  have behind := drop_behind here
  have left := remaining_behind here key.ends.ne_nil
  rw [readField,readVarint_number here]
  simp only [bind,Except.bind,low_bits,← typed]
  cases content with
  | varint number =>
    simp only [Content.wireType]
    rw [readVarint_number behind]
    simp [Cursor.after,Field.encode,Content.encode,Nat.add_assoc,pure,Except.pure]
  | fixed64 bytes size =>
    have room : ¬(bytes ++ rest).length < 8 := by simp [size]
    simp only [Content.wireType,Content.encode] at left ⊢
    rw [left,if_neg room]
    simp [Cursor.after,Field.encode,Content.encode,size,Nat.add_assoc,pure,Except.pure]
  | delimited length bytes size =>
    simp only [Content.encode,List.append_assoc] at behind
    have whole := remaining_behind behind length.ends.ne_nil
    have room : ¬length.word > (bytes ++ rest).length := by simp [← size]
    have len : (UInt64.ofNat length.value).toNat = length.word := UInt64.toNat_ofNat'
    simp only [Content.wireType]
    rw [readVarint_number behind]
    simp only [len,whole,← UInt64.toNat_inj,field_number]
    rw [if_neg room]
    simp only [Cursor.after,Field.encode,Content.encode,Field.number,List.length_append,Nat.add_assoc,pure,Except.pure]
    rw [size,apply_ite Except.ok,apply_ite Except.ok]
    rfl
  | fixed32 bytes size =>
    have room : ¬(bytes ++ rest).length < 4 := by simp [size]
    simp only [Content.wireType,Content.encode] at left ⊢
    rw [left,if_neg room]
    simp [Cursor.after,Field.encode,Content.encode,size,Nat.add_assoc,pure,Except.pure]

/-- A key that no content of its type follows is refused. -/
theorem readField_refuses {key : Number} (here : raw.drop c.pos = key.bytes ++ rest)
    (none : ¬Content.Leads (key.word % 8) rest) : readField raw c = .error .malformed := by
  have behind := drop_behind here
  have left := remaining_behind here key.ends.ne_nil
  rw [readField,readVarint_number here]
  simp only [bind,Except.bind,low_bits]
  split
  next typed =>
    rw [typed] at none
    rcases readVarint_cases raw (c.pos + key.bytes.length) with ⟨number,later,same⟩ | ⟨refused,_⟩
    · exact absurd (Content.leads_varint (behind.symm.trans same)) none
    · rw [refused]
  next typed =>
    rw [typed] at none
    rw [left,if_pos (Nat.not_le.mp fun room => none (Content.leads_fixed64 room))]
    rfl
  next typed =>
    rw [typed] at none
    rcases readVarint_cases raw (c.pos + key.bytes.length) with ⟨length,later,same⟩ | ⟨refused,_⟩
    · have whole := remaining_behind same length.ends.ne_nil
      have len : (UInt64.ofNat length.value).toNat = length.word := UInt64.toNat_ofNat'
      rw [readVarint_number same]
      simp only [len,whole]
      rw [if_pos (Nat.not_le.mp fun room => none (Content.leads_delimited (behind.symm.trans same) room))]
      rfl
    · rw [refused]
  next typed =>
    rw [typed] at none
    rw [left,if_pos (Nat.not_le.mp fun room => none (Content.leads_fixed32 room))]
    rfl
  · rfl

theorem readField_cases (raw : Str) (c : Cursor) : (∃ (field : Field) (rest : Str), raw.drop c.pos = field.encode ++ rest) ∨
    readField raw c = .error .malformed ∧ ∀ (field : Field) (rest : Str), raw.drop c.pos ≠ field.encode ++ rest := by
  rcases readVarint_cases raw c.pos with ⟨key,rest,here⟩ | ⟨refused,none⟩
  · by_cases leads : Content.Leads (key.word % 8) rest
    · left
      rw [here]
      exact Field.leads leads
    · refine .inr ⟨readField_refuses here leads,fun field later same => leads ?_⟩
      rw [here,Field.encode,List.append_assoc] at same
      obtain ⟨rfl,behind⟩ := Number.unique same
      exact ⟨field.content,field.typed,later,behind⟩
  · right
    refine ⟨by rw [readField,refused]; rfl,fun field rest same => none field.key (field.content.encode ++ rest) ?_⟩
    rw [same,Field.encode,List.append_assoc]

@[simp] theorem after_pos (c : Cursor) (field : Field) : (c.after field).pos = c.pos + field.encode.length := by
  unfold Cursor.after
  dsimp only
  split
  · split_ifs <;> rfl
  · rfl

theorem readFields_cases {turns : Nat} (inside : c.pos ≤ raw.length) (enough : raw.length - c.pos < turns) :
    (∃ fields, raw.drop c.pos = message fields ∧ readFields raw turns c = .ok (fields.foldl Cursor.after c)) ∨
      readFields raw turns c = .error .malformed ∧ ∀ fields, raw.drop c.pos ≠ message fields := by
  induction turns generalizing c with
  | zero => omega
  | succ turns ih =>
    rw [readFields]
    split
    next more =>
      rcases readField_cases raw c with ⟨field,rest,here⟩ | ⟨refused,none⟩
      · have whole := length_behind here field.encode_ne_nil
        have some := List.length_pos_iff.mpr field.encode_ne_nil
        have behind := drop_behind here
        rw [← after_pos] at behind
        rw [readField_field here]
        rcases ih (c := c.after field) (by rw [after_pos]; omega) (by rw [after_pos]; omega) with
          ⟨fields,rests,read⟩ | ⟨refused,none⟩
        · exact .inl ⟨field :: fields,by rw [here,message_cons,← rests,behind],read⟩
        · refine .inr ⟨refused,fun fields same => ?_⟩
          cases fields with
          | nil => simp [here,field.encode_ne_nil] at same
          | cons first fields =>
            rw [here,message_cons] at same
            exact none fields (behind.trans (Field.unique same).2)
      · refine .inr ⟨by rw [refused]; rfl,fun fields same => ?_⟩
        cases fields with
        | nil =>
          have empty := congrArg List.length same
          rw [List.length_drop,message_nil,List.length_nil] at empty
          omega
        | cons first fields => exact none first (message fields) same
    next done => exact .inl ⟨[],by rw [List.drop_eq_nil_of_le (Nat.not_lt.mp done)]; rfl,rfl⟩

/-- What the two views show, once these fields are read. -/
structure Marks (raw : Str) (c : Cursor) (seen : List Field) : Prop where
  typeUrl : c.typeUrl.content raw = (last 1 seen).getD []
  valueBytes : c.valueBytes.content raw = (last 2 seen).getD []
  typeUrl_within : c.typeUrl.Within raw
  valueBytes_within : c.valueBytes.Within raw

theorem Marks.after {seen : List Field} (marks : Marks raw c seen) {field : Field}
    (here : raw.drop c.pos = field.encode ++ rest) : Marks raw (c.after field) (seen ++ [field]) := by
  obtain ⟨typeUrl,valueBytes,typeUrl_within,valueBytes_within⟩ := marks
  obtain ⟨key,content,typed⟩ := field
  have unchanged {pos : Nat} (other : ∀ number, number = 1 ∨ number = 2 → Field.text? number ⟨key,content,typed⟩ = none) :
      Marks raw { c with pos } (seen ++ [⟨key,content,typed⟩]) := by
    refine ⟨?_,?_,typeUrl_within,valueBytes_within⟩
    · rw [last_append,other 1 (.inl rfl)]
      exact typeUrl
    · rw [last_append,other 2 (.inr rfl)]
      exact valueBytes
  cases content with
  | varint | fixed64 | fixed32 => exact unchanged fun number _ => rfl
  | delimited length bytes size =>
    simp only [Field.encode,Content.encode,List.append_assoc] at here
    have behind := drop_behind here
    have shown : View.content ⟨c.pos + key.bytes.length + length.bytes.length,bytes.length⟩ raw = bytes := by
      rw [View.content,drop_behind behind,List.take_left]
    have within : View.Within ⟨c.pos + key.bytes.length + length.bytes.length,bytes.length⟩ raw := by
      have whole := length_behind behind length.ends.ne_nil
      rw [List.length_append] at whole
      unfold View.Within
      dsimp only
      omega
    let field : Field := ⟨key,.delimited length bytes size,typed⟩
    have text (number : Nat) : field.text? number = if field.number = number then some bytes else none := rfl
    rw [Cursor.after]
    dsimp only
    by_cases first : field.number = 1
    · rw [if_pos first]
      refine ⟨?_,?_,within,valueBytes_within⟩
      · rw [last_append,text,if_pos first]
        exact shown
      · rw [last_append,text,if_neg (by omega)]
        exact valueBytes
    rw [if_neg first]
    by_cases second : field.number = 2
    · rw [if_pos second]
      refine ⟨?_,?_,typeUrl_within,within⟩
      · rw [last_append,text,if_neg (by omega)]
        exact typeUrl
      · rw [last_append,text,if_pos second]
        exact shown
    · rw [if_neg second]
      refine unchanged fun number read => ?_
      rw [text,if_neg (by omega)]

theorem Marks.all {seen fields : List Field} (marks : Marks raw c seen) (here : raw.drop c.pos = message fields) :
    Marks raw (fields.foldl Cursor.after c) (seen ++ fields) := by
  induction fields generalizing c seen with
  | nil => simpa using marks
  | cons field fields ih =>
    have behind := drop_behind here
    rw [← after_pos] at behind
    simpa using ih (marks.after here) behind

end

/-- Either the payload is a row of fields, and the reader finds the last of each number, or
it is refused. -/
theorem read_cases (raw : Str) : (∃ (fields : List Field) (typeUrl valueBytes : View), raw = message fields ∧
    read raw = .ok (typeUrl,valueBytes) ∧ typeUrl.Within raw ∧ valueBytes.Within raw ∧
    typeUrl.content raw = (last 1 fields).getD [] ∧ valueBytes.content raw = (last 2 fields).getD []) ∨
    read raw = .error .malformed ∧ ∀ fields, raw ≠ message fields := by
  have inside : ({} : Cursor).pos ≤ raw.length := Nat.zero_le _
  have enough : raw.length - ({} : Cursor).pos < raw.length + 1 := Nat.lt_succ_self _
  rcases readFields_cases inside enough with ⟨fields,here,found⟩ | ⟨refused,none⟩
  · have marks : Marks raw {} [] := ⟨rfl,rfl,Nat.zero_le _,Nat.zero_le _⟩
    have whole := marks.all here
    refine .inl ⟨fields,_,_,here,by rw [read,found]; rfl,whole.typeUrl_within,whole.valueBytes_within,?_,?_⟩
    · exact whole.typeUrl
    · exact whole.valueBytes
  · exact .inr ⟨by rw [read,refused]; rfl,none⟩

/-- The reader comes to its end, reads no byte behind the payload, and accepts just the
rows of fields. -/
theorem read_accepts_fields (raw : Str) :
    read raw ≠ .error .endless ∧ read raw ≠ .error .overrun ∧
    ((∃ typeUrl valueBytes, read raw = .ok (typeUrl,valueBytes)) ↔ ∃ fields, raw = message fields) ∧
    ∀ typeUrl valueBytes, read raw = .ok (typeUrl,valueBytes) → typeUrl.Within raw ∧ valueBytes.Within raw ∧
      ∀ fields, raw = message fields →
        typeUrl.content raw = (last 1 fields).getD [] ∧ valueBytes.content raw = (last 2 fields).getD [] := by
  rcases read_cases raw with ⟨fields,typeUrl,valueBytes,here,found,within⟩ | ⟨refused,none⟩
  · rw [found]
    refine ⟨by simp,by simp,⟨fun _ => ⟨fields,here⟩,fun _ => ⟨typeUrl,valueBytes,rfl⟩⟩,?_⟩
    rintro _ _ ⟨⟩
    refine ⟨within.1,within.2.1,fun other same => ?_⟩
    rw [message_unique (same.symm.trans here)]
    exact within.2.2
  · rw [refused]
    refine ⟨by simp,by simp,⟨?_,?_⟩,by simp⟩
    · rintro ⟨_,_,⟨⟩⟩
    · rintro ⟨fields,same⟩
      exact absurd same (none fields)

end AnyFrame

end Wisp
