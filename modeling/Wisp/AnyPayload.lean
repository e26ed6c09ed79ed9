import Wisp.AnyFrame

/-! Packing a payload by hand, and both hand-written halves beside protobuf's own rules. -/
namespace Wisp

namespace AnyFrame

open ProtoWire

/-- The loop that appends a length, seven bits at a time. -/
def appendVarint (out : Str) (n : Nat) : Str :=
  if n ≥ 0x80 then appendVarint (out ++ [UInt8.ofNat ((n &&& 0x7f) ||| 0x80)]) (n >>> 7) else out ++ [UInt8.ofNat n]
termination_by n
decreasing_by
  rw [Nat.shiftRight_eq_div_pow]
  omega

def appendLengthDelimited (out : Str) (tag : UInt8) (bytes : Str) : Str := appendVarint (out ++ [tag]) bytes.length ++ bytes

/-- What a protobuf message becomes, of its type's name and its own serialization. -/
def encodePayload (typeName body : Str) : Str :=
  appendLengthDelimited (appendLengthDelimited [] 0x0a (typeUrlPrefix ++ typeName)) 0x12 body

theorem or_high (n : Nat) : (n &&& 0x7f) ||| 0x80 = n % 128 + 128 := by
  have low : n &&& 0x7f = n % 128 := Nat.and_two_pow_sub_one_eq_mod n 7
  have joined := Nat.two_pow_add_eq_or_of_lt (i := 7) (Nat.mod_lt n (by decide)) 1
  rw [low,Nat.or_comm,Nat.add_comm]
  exact joined.symm

theorem appendVarint_eq (out : Str) (n : Nat) : appendVarint out n = out ++ Varint.encode n := by
  induction out, n using appendVarint.induct with
  | case1 out n large ih =>
    have high : Varint.encode n = UInt8.ofNat (n % 128 + 128) :: Varint.encode (n / 128) := by
      rw [Varint.encode,if_neg (Nat.not_lt.mpr large)]
    rw [appendVarint,if_pos large,ih,high,or_high,Nat.shiftRight_eq_div_pow,List.append_assoc]
    rfl
  | case2 out n small => rw [appendVarint,if_neg small,Varint.encode,if_pos (Nat.not_le.mp small)]

/-- A string field as it is packed. -/
def stringField (number : Nat) (text : Str) (small : 8 * number + 2 < 2 ^ 64) (fits : text.length < 2 ^ 64) : Field where
  key := .ofNat (8 * number + 2) small
  content := .delimited (.ofNat text.length fits) text (Number.word_ofNat _ _).symm
  typed := by
    have low : (8 * number + 2) % 8 = 2 := by omega
    exact ((congrArg (· % 8) (Number.word_ofNat _ small)).trans low).symm

theorem stringField_text (number other : Nat) (text : Str) (small : 8 * number + 2 < 2 ^ 64) (fits : text.length < 2 ^ 64) :
    (stringField number text small fits).text? other = if number = other then some text else none := by
  have own : (stringField number text small fits).number = number := by
    rw [Field.number,stringField,Number.word_ofNat]
    omega
  rw [Field.text?,own]
  rfl

theorem encodePayload_eq (typeName body : Str) : encodePayload typeName body =
    Varint.encode (8 * 1 + 2) ++ (Varint.encode (typeUrlPrefix ++ typeName).length ++ (typeUrlPrefix ++ typeName)) ++
      (Varint.encode (8 * 2 + 2) ++ (Varint.encode body.length ++ body)) := by
  have first : Varint.encode (8 * 1 + 2) = [0x0a] := by rw [Varint.encode]; rfl
  have second : Varint.encode (8 * 2 + 2) = [0x12] := by rw [Varint.encode]; rfl
  simp only [encodePayload,appendLengthDelimited,appendVarint_eq,first,second]
  simp

theorem typeNameOf_encodePayload (typeName body : Str) (named : (typeUrlPrefix ++ typeName).length < 2 ^ 64)
    (bounded : body.length < 2 ^ 64) : typeNameOf (encodePayload typeName body) = (typeName,body) := by
  let url := stringField 1 (typeUrlPrefix ++ typeName) (by decide) named
  let packed := stringField 2 body (by decide) bounded
  have whole : encodePayload typeName body = message [url,packed] := by
    rw [encodePayload_eq]
    simp only [message_cons,message_nil,List.append_nil]
    rfl
  rcases read_cases (encodePayload typeName body) with ⟨fields,typeUrl,value,here,found,_,_,shown,carried⟩ | ⟨_,none⟩
  · rw [message_unique (here.symm.trans whole)] at shown carried
    have first : last 1 [url,packed] = some (typeUrlPrefix ++ typeName) := by
      simp [last,url,packed,stringField_text]
    have second : last 2 [url,packed] = some body := by
      simp [last,url,packed,stringField_text]
    rw [first] at shown
    rw [second] at carried
    rw [typeNameOf,found]
    simp [shown,carried]
  · exact absurd whole (none _)

theorem typeNameOf_encodePayload_empty : typeNameOf (encodePayload (str "broker.SystemStats") []) =
    (str "broker.SystemStats",[]) :=
  typeNameOf_encodePayload _ _ (by decide) (by decide)

theorem serialize_any (typeName body : Str) : serialize [(1,typeUrlPrefix ++ typeName),(2,body)] =
    Varint.encode (8 * 1 + 2) ++ (Varint.encode (typeUrlPrefix ++ typeName).length ++ (typeUrlPrefix ++ typeName)) ++
      if body = [] then [] else Varint.encode (8 * 2 + 2) ++ (Varint.encode body.length ++ body) := by
  have named : typeUrlPrefix ++ typeName ≠ [] := by simp [typeUrlPrefix,str]
  simp only [serialize,List.flatMap_cons,List.flatMap_nil,List.append_nil,if_neg named]

/-- Behind what protobuf writes of an Any with an empty value stands the empty value. -/
theorem encodePayload_nil (typeName : Str) :
    encodePayload typeName [] = serialize [(1,typeUrlPrefix ++ typeName),(2,[])] ++ [0x12,0x00] := by
  have tag : Varint.encode (8 * 2 + 2) = [0x12] := by rw [Varint.encode]; rfl
  have zero : Varint.encode 0 = [0x00] := by rw [Varint.encode]; rfl
  rw [encodePayload_eq,serialize_any,if_pos rfl,List.append_nil,List.append_nil,List.length_nil,tag,zero]
  rfl

/-- The bytes are those of the Any itself just where something is packed: an empty body is
written where protobuf leaves it out. -/
theorem encodePayload_serialized_iff (typeName body : Str) :
    encodePayload typeName body = serialize [(1,typeUrlPrefix ++ typeName),(2,body)] ↔ body ≠ [] := by
  constructor
  · rintro same rfl
    rw [encodePayload_nil] at same
    simp at same
  · intro packed
    rw [encodePayload_eq,serialize_any,if_neg packed]

/-- A message of defaults only. -/
theorem empty_body_written : encodePayload (str "broker.SystemStats") [] ≠
    serialize [(1,typeUrlPrefix ++ str "broker.SystemStats"),(2,[])] := by
  rw [encodePayload_nil]
  simp

/-- What protobuf makes of the bytes as an Any: every key is proper, groups are skipped
where they nest, and the last string of a number outside of them counts. -/
def ProtobufParses (raw typeUrl value : Str) : Prop :=
  ∃ tokens : List Token, raw = tokens.flatMap Token.encode ∧ (∀ token ∈ tokens, token.key.Proper) ∧ Nested [] tokens ∧
    (last 1 (outermost 0 tokens)).getD [] = typeUrl ∧ (last 2 (outermost 0 tokens)).getD [] = value

/-- What the reader makes of them. -/
def Reads (raw typeUrl value : Str) : Prop :=
  ∃ shown carried : View, read raw = .ok (shown,carried) ∧ shown.content raw = typeUrl ∧ carried.content raw = value

theorem reads_message (fields : List Field) :
    Reads (message fields) ((last 1 fields).getD []) ((last 2 fields).getD []) := by
  rcases read_cases (message fields) with ⟨others,shown,carried,here,found,_,_,url,value⟩ | ⟨_,none⟩
  · rw [← message_unique here] at url value
    exact ⟨shown,carried,found,url,value⟩
  · exact absurd rfl (none fields)

theorem Reads.message {raw typeUrl value : Str} (reads : Reads raw typeUrl value) :
    ∃ fields, raw = message fields ∧ (last 1 fields).getD [] = typeUrl ∧ (last 2 fields).getD [] = value := by
  obtain ⟨shown,carried,read,url,content⟩ := reads
  rcases read_cases raw with ⟨fields,shown',carried',here,found,_,_,url',content'⟩ | ⟨refused,_⟩
  · cases read.symm.trans found
    exact ⟨fields,here,url'.symm.trans url,content'.symm.trans content⟩
  · cases read.symm.trans refused

theorem parses_message {fields : List Field} (proper : ∀ field ∈ fields, field.key.Proper) :
    ProtobufParses (ProtoWire.message fields) ((last 1 fields).getD []) ((last 2 fields).getD []) := by
  refine ⟨fields.map Token.ofField,(message_tokens fields).symm,?_,nested_fields fields,?_,?_⟩
  · intro token member
    obtain ⟨field,listed,rfl⟩ := List.mem_map.mp member
    exact proper field listed
  · rw [outermost_fields]
  · rw [outermost_fields]

theorem ProtobufParses.proper {fields : List Field} {typeUrl value : Str}
    (parses : ProtobufParses (ProtoWire.message fields) typeUrl value) : ∀ field ∈ fields, field.key.Proper := by
  intro field member
  obtain ⟨tokens,same,proper,_⟩ := parses
  rw [← message_tokens] at same
  rw [← tokens_unique same] at proper
  exact proper (.ofField field) (List.mem_map_of_mem member)

theorem Reads.ungrouped {tokens : List Token} {typeUrl value : Str}
    (reads : Reads (tokens.flatMap Token.encode) typeUrl value) : ∀ token ∈ tokens, token.body ≠ .start := by
  intro token member
  obtain ⟨fields,here,_⟩ := reads.message
  rw [← message_tokens] at here
  rw [tokens_unique here] at member
  obtain ⟨field,_,rfl⟩ := List.mem_map.mp member
  rintro ⟨⟩

/-- The two agree on a payload just where it is neither a row of fields with a key that
protobuf refuses nor a message with a group in it. -/
theorem reads_iff_parses_iff (raw : Str) :
    (∀ typeUrl value, Reads raw typeUrl value ↔ ProtobufParses raw typeUrl value) ↔
    (∀ fields, raw = message fields → ∀ field ∈ fields, field.key.Proper) ∧
    ∀ tokens : List Token, raw = tokens.flatMap Token.encode → (∀ token ∈ tokens, token.key.Proper) → Nested [] tokens →
      ∀ token ∈ tokens, token.body ≠ .start := by
  constructor
  · intro agree
    refine ⟨?_,?_⟩
    · rintro fields rfl
      exact ((agree _ _).mp (reads_message fields)).proper
    · rintro tokens rfl proper nested
      exact ((agree _ _).mpr ⟨tokens,rfl,proper,nested,rfl,rfl⟩).ungrouped
  · rintro ⟨keyed,ungrouped⟩ typeUrl value
    constructor
    · intro reads
      obtain ⟨fields,rfl,rfl,rfl⟩ := reads.message
      exact parses_message (keyed fields rfl)
    · rintro ⟨tokens,same,proper,nested,rfl,rfl⟩
      obtain ⟨fields,rfl⟩ := fields_of_ungrouped nested (ungrouped tokens same proper nested)
      rw [same,message_tokens,outermost_fields]
      exact reads_message fields

/-- A zero behind a key. -/
def zeroField (key : Number) (typed : key.word % 8 = 0) : Field :=
  ⟨key,.varint ⟨[0x00],.last (by decide),by decide⟩,typed.symm⟩

theorem zeroField_differs {key : Number} (typed : key.word % 8 = 0) (improper : ¬key.Proper) :
    Reads (message [zeroField key typed]) [] [] ∧
      ∀ typeUrl value, ¬ProtobufParses (message [zeroField key typed]) typeUrl value :=
  ⟨reads_message [zeroField key typed],fun _ _ parses => improper (parses.proper _ (List.mem_singleton_self _))⟩

/-- The key of a field with number 0. -/
def unnumberedKey : Number := ⟨[0x00],.last (by decide),by decide⟩

/-- A key of 33 bits. -/
def wideKey : Number := ⟨[0x80,0x80,0x80,0x80,0x10],
  .more (by decide) (.more (by decide) (.more (by decide) (.more (by decide) (.last (by decide))))),by decide⟩

/-- An empty group with number 3. -/
def emptyGroup : List Token :=
  [⟨⟨[0x1b],.last (by decide),by decide⟩,.start,by decide⟩,⟨⟨[0x1c],.last (by decide),by decide⟩,.stop,by decide⟩]

theorem reader_differs_from_protobuf :
    (Reads [0x00,0x00] [] [] ∧ ∀ typeUrl value, ¬ProtobufParses [0x00,0x00] typeUrl value) ∧
    (Reads [0x80,0x80,0x80,0x80,0x10,0x00] [] [] ∧
      ∀ typeUrl value, ¬ProtobufParses [0x80,0x80,0x80,0x80,0x10,0x00] typeUrl value) ∧
    ProtobufParses [0x1b,0x1c] [] [] ∧ ∀ typeUrl value, ¬Reads [0x1b,0x1c] typeUrl value := by
  refine ⟨?_,?_,⟨emptyGroup,rfl,?_,⟨rfl,rfl⟩,rfl,rfl⟩,fun typeUrl value reads => ?_⟩
  · have zero : ¬unnumberedKey.Proper := fun proper => absurd proper.1 (by decide)
    exact zeroField_differs (by decide) zero
  · have wide : ¬wideKey.Proper := fun proper => absurd proper.2 (by decide)
    exact zeroField_differs (by decide) wide
  · simp [emptyGroup,Number.Proper,Number.value,Varint.value]
  · have grouped : Reads (emptyGroup.flatMap Token.encode) typeUrl value := reads
    exact grouped.ungrouped _ List.mem_cons_self rfl

end AnyFrame

end Wisp
