import Wisp.Varint

/-! The protobuf wire format. A message is a row of fields, each a key and what the key's
low three bits announce; between fields stand the marks that open and close groups. -/
namespace ProtoWire

abbrev Bytes := List UInt8

/-- A row of codes none of which leads another is read back in one way only. -/
theorem flatMap_unique {α : Type} {code : α → Bytes} (taken : ∀ a, code a ≠ [])
    (apart : ∀ a a' rest rest', code a ++ rest = code a' ++ rest' → a = a' ∧ rest = rest') {row row' : List α}
    (same : row.flatMap code = row'.flatMap code) : row = row' := by
  induction row generalizing row' with
  | nil =>
    cases row' with
    | nil => rfl
    | cons a later => simp [taken] at same
  | cons a later ih =>
    cases row' with
    | nil => simp [taken] at same
    | cons a' later' =>
      obtain ⟨rfl,rests⟩ := apart a a' _ _ same
      rw [ih rests]

/-- A varint of ten bytes at most. -/
@[ext] structure Number where
  bytes : Bytes
  ends : Varint.Ends bytes
  short : bytes.length ≤ 10

namespace Number

def value (number : Number) : Nat := Varint.value number.bytes

/-- What is left of the number in 64 bits. -/
def word (number : Number) : Nat := number.value % 2 ^ 64

/-- A key that a parser takes: a field number is in it, and 32 bits hold it. -/
def Proper (key : Number) : Prop := 8 ≤ key.value ∧ key.value < 2 ^ 32

/-- The shortest varint of a number. -/
def ofNat (n : Nat) (small : n < 2 ^ 64) : Number where
  bytes := Varint.encode n
  ends := Varint.encode_ends n
  short := Varint.encode_length_le (Nat.lt_of_lt_of_le small (by decide))

@[simp] theorem word_ofNat (n : Nat) (small : n < 2 ^ 64) : (ofNat n small).word = n := by
  rw [word,value,ofNat,Varint.value_encode,Nat.mod_eq_of_lt small]

theorem unique {number number' : Number} {rest rest' : Bytes} (same : number.bytes ++ rest = number'.bytes ++ rest') :
    number = number' ∧ rest = rest' := by
  obtain ⟨bytes,rests⟩ := number.ends.unique number'.ends same
  exact ⟨Number.ext bytes,rests⟩

end Number

inductive Content where
  | varint (number : Number)
  | fixed64 (bytes : Bytes) (size : bytes.length = 8)
  | delimited (length : Number) (bytes : Bytes) (size : bytes.length = length.word)
  | fixed32 (bytes : Bytes) (size : bytes.length = 4)

namespace Content

def wireType : Content → Nat
  | .varint _ => 0
  | .fixed64 _ _ => 1
  | .delimited _ _ _ => 2
  | .fixed32 _ _ => 5

def encode : Content → Bytes
  | .varint number => number.bytes
  | .fixed64 bytes _ => bytes
  | .delimited length bytes _ => length.bytes ++ bytes
  | .fixed32 bytes _ => bytes

theorem unique {content content' : Content} {rest rest' : Bytes} (typed : content.wireType = content'.wireType)
    (same : content.encode ++ rest = content'.encode ++ rest') : content = content' ∧ rest = rest' := by
  cases content with
  | varint number =>
    cases content' with
    | varint number' =>
      obtain ⟨rfl,rests⟩ := Number.unique same
      exact ⟨rfl,rests⟩
    | fixed64 | delimited | fixed32 => cases typed
  | fixed64 bytes size =>
    cases content' with
    | fixed64 bytes' size' =>
      obtain ⟨rfl,rests⟩ := List.append_inj same (size.trans size'.symm)
      exact ⟨rfl,rests⟩
    | varint | delimited | fixed32 => cases typed
  | delimited length bytes size =>
    cases content' with
    | delimited length' bytes' size' =>
      simp only [encode,List.append_assoc] at same
      obtain ⟨rfl,behind⟩ := Number.unique same
      obtain ⟨rfl,rests⟩ := List.append_inj behind (size.trans size'.symm)
      exact ⟨rfl,rests⟩
    | varint | fixed64 | fixed32 => cases typed
  | fixed32 bytes size =>
    cases content' with
    | fixed32 bytes' size' =>
      obtain ⟨rfl,rests⟩ := List.append_inj same (size.trans size'.symm)
      exact ⟨rfl,rests⟩
    | varint | fixed64 | delimited => cases typed

/-- Content of this wire type stands in front. -/
def Leads (wireType : Nat) (bytes : Bytes) : Prop :=
  ∃ content : Content, content.wireType = wireType ∧ ∃ rest, bytes = content.encode ++ rest

section

variable {bytes : Bytes}

theorem leads_varint {number : Number} {rest : Bytes} (here : bytes = number.bytes ++ rest) : Leads 0 bytes :=
  ⟨.varint number,rfl,rest,here⟩

theorem leads_fixed64 (room : 8 ≤ bytes.length) : Leads 1 bytes :=
  ⟨.fixed64 (bytes.take 8) (List.length_take_of_le room),rfl,bytes.drop 8,(List.take_append_drop 8 bytes).symm⟩

theorem leads_delimited {length : Number} {rest : Bytes} (here : bytes = length.bytes ++ rest)
    (room : length.word ≤ rest.length) : Leads 2 bytes := by
  refine ⟨.delimited length (rest.take length.word) (List.length_take_of_le room),rfl,rest.drop length.word,?_⟩
  rw [here,encode,List.append_assoc,List.take_append_drop]

theorem leads_fixed32 (room : 4 ≤ bytes.length) : Leads 5 bytes :=
  ⟨.fixed32 (bytes.take 4) (List.length_take_of_le room),rfl,bytes.drop 4,(List.take_append_drop 4 bytes).symm⟩

end

end Content

structure Field where
  key : Number
  content : Content
  typed : content.wireType = key.word % 8

namespace Field

def number (field : Field) : Nat := field.key.word / 8

def encode (field : Field) : Bytes := field.key.bytes ++ field.content.encode

/-- What the field carries, if it is a string of this number. -/
def text? (number : Nat) (field : Field) : Option Bytes :=
  match field.content with
  | .delimited _ bytes _ => if field.number = number then some bytes else none
  | _ => none

/-- Behind a key stands a field if content of the announced type follows. -/
theorem leads {key : Number} {bytes : Bytes} (content : Content.Leads (key.word % 8) bytes) :
    ∃ (field : Field) (rest : Bytes), key.bytes ++ bytes = field.encode ++ rest := by
  obtain ⟨content,typed,rest,rfl⟩ := content
  exact ⟨⟨key,content,typed⟩,rest,by rw [encode,List.append_assoc]⟩

theorem encode_ne_nil (field : Field) : field.encode ≠ [] := by
  simp [encode,field.key.ends.ne_nil]

theorem unique {field field' : Field} {rest rest' : Bytes} (same : field.encode ++ rest = field'.encode ++ rest') :
    field = field' ∧ rest = rest' := by
  obtain ⟨key,content,typed⟩ := field
  obtain ⟨key',content',typed'⟩ := field'
  simp only [encode,List.append_assoc] at same
  obtain ⟨rfl,behind⟩ := Number.unique same
  obtain ⟨rfl,rests⟩ := Content.unique (typed.trans typed'.symm) behind
  exact ⟨rfl,rests⟩

end Field

def message (fields : List Field) : Bytes := fields.flatMap Field.encode

@[simp] theorem message_nil : message [] = [] := rfl

@[simp] theorem message_cons (field : Field) (fields : List Field) :
    message (field :: fields) = field.encode ++ message fields := rfl

theorem message_unique {fields fields' : List Field} (same : message fields = message fields') : fields = fields' :=
  flatMap_unique Field.encode_ne_nil (fun _ _ _ _ => Field.unique) same

/-- The last string of this number. -/
def last (number : Nat) (fields : List Field) : Option Bytes := (fields.filterMap (Field.text? number)).getLast?

theorem last_append (number : Nat) (fields : List Field) (field : Field) :
    last number (fields ++ [field]) = (field.text? number).or (last number fields) := by
  rw [last,List.filterMap_append,List.getLast?_append,last]
  cases text : field.text? number <;> simp [text]

/-- What stands behind a key where groups are read too: what a field carries, or nothing
behind the marks that open and close a group. -/
inductive Body where
  | content (content : Content)
  | start
  | stop

namespace Body

def wireType : Body → Nat
  | .content carried => carried.wireType
  | .start => 3
  | .stop => 4

def encode : Body → Bytes
  | .content carried => carried.encode
  | .start => []
  | .stop => []

theorem unique {body body' : Body} {rest rest' : Bytes} (typed : body.wireType = body'.wireType)
    (same : body.encode ++ rest = body'.encode ++ rest') : body = body' ∧ rest = rest' := by
  cases body with
  | content carried =>
    cases body' with
    | content carried' =>
      obtain ⟨rfl,rests⟩ := Content.unique typed same
      exact ⟨rfl,rests⟩
    | start | stop => cases carried <;> cases typed
  | start =>
    cases body' with
    | content carried' => cases carried' <;> cases typed
    | start => exact ⟨rfl,same⟩
    | stop => cases typed
  | stop =>
    cases body' with
    | content carried' => cases carried' <;> cases typed
    | start => cases typed
    | stop => exact ⟨rfl,same⟩

end Body

structure Token where
  key : Number
  body : Body
  typed : body.wireType = key.word % 8

namespace Token

def number (token : Token) : Nat := token.key.word / 8

def encode (token : Token) : Bytes := token.key.bytes ++ token.body.encode

def ofField (field : Field) : Token := ⟨field.key,.content field.content,field.typed⟩

theorem encode_ne_nil (token : Token) : token.encode ≠ [] := by
  simp [encode,token.key.ends.ne_nil]

theorem unique {token token' : Token} {rest rest' : Bytes} (same : token.encode ++ rest = token'.encode ++ rest') :
    token = token' ∧ rest = rest' := by
  obtain ⟨key,body,typed⟩ := token
  obtain ⟨key',body',typed'⟩ := token'
  simp only [encode,List.append_assoc] at same
  obtain ⟨rfl,behind⟩ := Number.unique same
  obtain ⟨rfl,rests⟩ := Body.unique (typed.trans typed'.symm) behind
  exact ⟨rfl,rests⟩

end Token

theorem tokens_unique {tokens tokens' : List Token}
    (same : tokens.flatMap Token.encode = tokens'.flatMap Token.encode) : tokens = tokens' :=
  flatMap_unique Token.encode_ne_nil (fun _ _ _ _ => Token.unique) same

theorem message_tokens (fields : List Field) : (fields.map Token.ofField).flatMap Token.encode = message fields := by
  rw [List.flatMap_map]
  rfl

/-- Every group is closed, under the number it was opened with, before the one around it;
the numbers of the open ones are given from the innermost out. -/
def Nested : List Nat → List Token → Prop
  | opened, [] => opened = []
  | opened, token :: rest =>
    match token.body, opened with
    | .content _, _ => Nested opened rest
    | .start, _ => Nested (token.number :: opened) rest
    | .stop, [] => False
    | .stop, innermost :: outer => innermost = token.number ∧ Nested outer rest

/-- The fields that stand in no group. -/
def outermost : Nat → List Token → List Field
  | _, [] => []
  | 0, ⟨key,.content content,typed⟩ :: rest => ⟨key,content,typed⟩ :: outermost 0 rest
  | depth + 1, ⟨_,.content _,_⟩ :: rest => outermost (depth + 1) rest
  | depth, ⟨_,.start,_⟩ :: rest => outermost (depth + 1) rest
  | depth, ⟨_,.stop,_⟩ :: rest => outermost (depth - 1) rest

theorem nested_fields (fields : List Field) : Nested [] (fields.map Token.ofField) := by
  induction fields with
  | nil => rfl
  | cons field fields ih => exact ih

theorem outermost_fields (fields : List Field) : outermost 0 (fields.map Token.ofField) = fields := by
  induction fields with
  | nil => rfl
  | cons field fields ih => exact congrArg (field :: ·) ih

/-- Where no group opens there are fields only. -/
theorem fields_of_ungrouped {tokens : List Token} (nested : Nested [] tokens)
    (ungrouped : ∀ token ∈ tokens, token.body ≠ .start) : ∃ fields : List Field, tokens = fields.map Token.ofField := by
  induction tokens with
  | nil => exact ⟨[],rfl⟩
  | cons token rest ih =>
    obtain ⟨key,body,typed⟩ := token
    rw [List.forall_mem_cons] at ungrouped
    cases body with
    | content content =>
      obtain ⟨fields,rfl⟩ := ih nested ungrouped.2
      exact ⟨⟨key,content,typed⟩ :: fields,rfl⟩
    | start => exact absurd rfl ungrouped.1
    | stop => exact nested.elim

/-- A message of strings as it is serialized: in the order given, an empty one left out. -/
def serialize (strings : List (Nat × Bytes)) : Bytes :=
  strings.flatMap fun (number,bytes) =>
    if bytes = [] then [] else Varint.encode (8 * number + 2) ++ (Varint.encode bytes.length ++ bytes)

end ProtoWire
