import Mathlib.Data.List.TakeWhile
import Wisp.Discovery

/-! The datagram a broker announces itself with: six fields with bars between them.
Whatever arrives is decoded or refused; what a broker sends is decoded to what it meant. -/
namespace Wisp

def isSpace (byte : UInt8) : Bool := byte == 32 || 9 ≤ byte && byte ≤ 13

def isDigit (byte : UInt8) : Bool := 48 ≤ byte && byte ≤ 57

/-- Whether the number is negative, and what follows its sign. -/
def readSign : Str → Bool × Str
  | 45 :: rest => (true,rest)
  | 43 :: rest => (false,rest)
  | text => (false,text)

/-- Blanks, a sign, and digits up to the first other byte. Without a digit, or out of
range of an int, `std::stoi` throws. -/
def stoi (text : Str) : Option Int :=
  let (negative,body) := readSign (text.dropWhile isSpace)
  let digits := body.takeWhile isDigit
  let magnitude : Int := digits.foldl (fun value digit => 10 * value + (digit.toNat - 48)) 0
  let value := if negative then -magnitude else magnitude
  if digits.isEmpty then none
  else if value < -2147483648 ∨ value > 2147483647 then none
  else some value

def parsePort (text : Str) (zeroAllowed : Bool) : Option UInt16 :=
  match stoi text with
  | none => none
  | some value =>
    if value < (if zeroAllowed then 0 else 1) ∨ value > 65535 then none
    else some (UInt16.ofNat value.toNat)

namespace Beacon

def magic : Str := str "WISP"
def wireVersion : Str := str "1"
def bar : UInt8 := 124

def encode (cluster uuid : Str) (routerPort tapPort : UInt16) : Str :=
  magic ++ [bar] ++ wireVersion ++ [bar] ++ cluster ++ [bar] ++ uuid ++ [bar] ++
    str (toString routerPort.toNat) ++ [bar] ++ str (toString tapPort.toNat)

/-- The router port must be usable; the tap port may be 0. -/
def decode (datagram : Str) : Option Beacon :=
  match datagram.splitOn bar with
  | [first,version,cluster,uuid,router,tap] =>
    if first ≠ magic ∨ version ≠ wireVersion then none
    else
      match parsePort router false,parsePort tap true with
      | some routerPort,some tapPort => some ⟨cluster,uuid,routerPort,tapPort⟩
      | _,_ => none
  | _ => none

end Beacon

theorem isDigit_iff (byte : UInt8) : isDigit byte = true ↔ 48 ≤ byte.toNat ∧ byte.toNat ≤ 57 := by
  simp [isDigit,UInt8.le_iff_toNat_le]

/-- A digit neither is skipped as a blank nor read as a sign. -/
theorem isDigit.leads {byte : UInt8} (digit : isDigit byte = true) :
    isSpace byte = false ∧ byte ≠ 45 ∧ byte ≠ 43 := by
  rw [isDigit_iff] at digit
  refine ⟨?_,?_,?_⟩
  · have blank : byte ≠ 32 := by rintro rfl; simp at digit
    have control : ¬byte ≤ 13 := by
      rw [UInt8.le_iff_toNat_le]
      have : (13 : UInt8).toNat = 13 := rfl
      omega
    simp [isSpace,blank,control]
  · rintro rfl
    simp at digit
  · rintro rfl
    simp at digit

theorem digit_byte {c : Char} (digit : c.isDigit = true) :
    isDigit (UInt8.ofNat c.toNat) = true ∧ (UInt8.ofNat c.toNat).toNat = c.toNat := by
  have range : 48 ≤ c.toNat ∧ c.toNat ≤ 57 := by
    simpa [Char.isDigit,Char.le_def,UInt32.le_iff_toNat_le] using digit
  have same : (UInt8.ofNat c.toNat).toNat = c.toNat := by
    rw [UInt8.toNat_ofNat']
    omega
  refine ⟨(isDigit_iff _).mpr ?_,same⟩
  rwa [same]

/-- The bytes of a decimal number. -/
theorem str_toString (n : Nat) :
    str (toString n) = (Nat.toDigits 10 n).map fun c => UInt8.ofNat c.toNat := by
  rw [str,show toString n = Nat.repr n from rfl,Nat.repr_eq_ofList_toDigits,String.toList_ofList]

theorem str_toString_digits (n : Nat) : ∀ byte ∈ str (toString n), isDigit byte = true := by
  intro byte member
  rw [str_toString] at member
  obtain ⟨c,listed,rfl⟩ := List.mem_map.mp member
  exact (digit_byte (Nat.isDigit_of_mem_toDigits (by decide) (by decide) listed)).1

theorem str_toString_value (n : Nat) :
    (str (toString n)).foldl (fun (value : Int) digit => 10 * value + (digit.toNat - 48)) 0 = n := by
  have each (chars : List Char) (digits : ∀ c ∈ chars, c.isDigit = true) (value : Nat) :
      (chars.map fun c => UInt8.ofNat c.toNat).foldl (fun (value : Int) digit => 10 * value + (digit.toNat - 48))
        value = (Nat.ofDigitChars 10 chars value : Nat) := by
    induction chars generalizing value with
    | nil => rfl
    | cons c rest ih =>
      have range : 48 ≤ c.toNat ∧ c.toNat ≤ 57 := by
        simpa [Char.isDigit,Char.le_def,UInt32.le_iff_toNat_le] using digits c (List.mem_cons_self ..)
      rw [List.map_cons,List.foldl_cons,Nat.ofDigitChars_cons,
        ← ih (fun other member => digits other (List.mem_cons_of_mem c member))]
      congr 1
      rw [(digit_byte (digits c (List.mem_cons_self ..))).2]
      have zero : '0'.toNat = 48 := rfl
      push_cast [zero]
      omega
  rw [str_toString]
  have whole := each (Nat.toDigits 10 n) (fun c member => Nat.isDigit_of_mem_toDigits (by decide) (by decide) member) 0
  rwa [Nat.ofDigitChars_toDigits (by decide) (by decide)] at whole

theorem str_toString_ne_nil (n : Nat) : str (toString n) ≠ [] := by
  rw [str_toString]
  simp [Nat.toDigits_ne_nil]

/-- A text of digits is read to its end. -/
theorem stoi_digits {text : Str} (named : text ≠ []) (digits : ∀ byte ∈ text, isDigit byte = true) {value : Nat}
    (worth : text.foldl (fun (value : Int) digit => 10 * value + (digit.toNat - 48)) 0 = value) :
    stoi text = if value ≤ 2147483647 then some (value : Int) else none := by
  obtain ⟨first,rest,rfl⟩ := List.exists_cons_of_ne_nil named
  obtain ⟨unspaced,unnegated,unsigned⟩ := isDigit.leads (digits first (List.mem_cons_self ..))
  unfold stoi
  rw [List.dropWhile_cons_of_neg (by simp [unspaced])]
  have body : readSign (first :: rest) = (false,first :: rest) := by
    unfold readSign
    split
    next same => exact absurd (List.cons.inj same).1 unnegated
    next same => exact absurd (List.cons.inj same).1 unsigned
    · rfl
  have whole : (first :: rest).takeWhile isDigit = first :: rest := List.takeWhile_eq_self_iff.mpr digits
  rw [body]
  dsimp only
  rw [whole,worth,if_neg Bool.false_ne_true,if_neg (by simp)]
  by_cases small : value ≤ 2147483647
  · rw [if_pos small,if_neg (by omega)]
  · rw [if_neg small,if_pos (by omega)]

theorem stoi_toString (n : Nat) :
    stoi (str (toString n)) = if n ≤ 2147483647 then some (n : Int) else none :=
  stoi_digits (str_toString_ne_nil n) (str_toString_digits n) (str_toString_value n)

theorem parsePort_toString (port : UInt16) (zeroAllowed : Bool) (usable : zeroAllowed = true ∨ port ≠ 0) :
    parsePort (str (toString port.toNat)) zeroAllowed = some port := by
  have bound := port.toNat_lt
  have room : ¬((port.toNat : Int) < (if zeroAllowed then 0 else 1) ∨ (port.toNat : Int) > 65535) := by
    rcases usable with allowed | nonzero
    · rw [if_pos allowed]
      omega
    · have positive : port.toNat ≠ 0 := fun zero => nonzero (UInt16.toNat_inj.mp zero)
      split <;> omega
  rw [parsePort,stoi_toString,if_pos (by omega)]
  dsimp only
  rw [if_neg room,Int.toNat_natCast,UInt16.ofNat_toNat]

/-- A number as `std::to_string` writes it: digits, and no zero in front of others. -/
def Numeral (text : Str) : Prop :=
  text ≠ [] ∧ text.all isDigit = true ∧ (text.head? = some 48 → text = [48])

instance (text : Str) : Decidable (Numeral text) := inferInstanceAs (Decidable (_ ∧ _ ∧ _))

theorem str_toString_push {n d : Nat} (positive : 0 < n) (digit : d < 10) :
    str (toString (10 * n + d)) = str (toString n) ++ [UInt8.ofNat (48 + d)] := by
  rw [str_toString,str_toString,← Nat.toDigits_append_toDigits (by decide) positive digit,List.map_append,
    Nat.toDigits_of_lt_base digit,List.map_singleton,Nat.toNat_digitChar_of_lt_ten digit]

theorem str_toString_digit {d : Nat} (digit : d < 10) : str (toString d) = [UInt8.ofNat (48 + d)] := by
  rw [str_toString,Nat.toDigits_of_lt_base digit,List.map_singleton,Nat.toNat_digitChar_of_lt_ten digit]

theorem exists_digit {byte : UInt8} (digit : isDigit byte = true) : ∃ d < 10, byte = UInt8.ofNat (48 + d) := by
  rw [isDigit_iff] at digit
  refine ⟨byte.toNat - 48,by omega,?_⟩
  rw [Nat.add_sub_cancel' digit.1,UInt8.ofNat_toNat]

/-- Digits behind a positive number make another one. -/
theorem str_toString_extend (text : Str) (digits : ∀ byte ∈ text, isDigit byte = true) {n : Nat} (positive : 0 < n) :
    ∃ m : Nat, str (toString n) ++ text = str (toString m) := by
  induction text generalizing n with
  | nil => exact ⟨n,List.append_nil _⟩
  | cons byte rest ih =>
    rw [List.forall_mem_cons] at digits
    obtain ⟨d,digit,rfl⟩ := exists_digit digits.1
    obtain ⟨m,whole⟩ := ih digits.2 (n := 10 * n + d) (by omega)
    refine ⟨m,?_⟩
    rw [← whole,str_toString_push positive digit,List.append_assoc,List.singleton_append]

theorem str_toString_head (n : Nat) (positive : 0 < n) : (str (toString n)).head? ≠ some 48 := by
  induction n using Nat.strongRecOn with
  | ind n ih =>
    by_cases small : n < 10
    · rw [str_toString_digit small,List.head?_cons,ne_eq,Option.some.injEq,← UInt8.toNat_inj,UInt8.toNat_ofNat']
      have zero : (48 : UInt8).toNat = 48 := rfl
      omega
    · have front := ih (n / 10) (by omega) (by omega)
      have pushed := str_toString_push (n := n / 10) (by omega) (Nat.mod_lt n (by decide : 0 < 10))
      rw [Nat.div_add_mod] at pushed
      rw [pushed,List.head?_append_of_ne_nil _ (str_toString_ne_nil _)]
      exact front

theorem numeral_iff (text : Str) : Numeral text ↔ ∃ n : Nat, text = str (toString n) := by
  constructor
  · rintro ⟨named,digits,leading⟩
    obtain ⟨first,rest,rfl⟩ := List.exists_cons_of_ne_nil named
    rw [List.all_eq_true,List.forall_mem_cons] at digits
    obtain ⟨d,digit,rfl⟩ := exists_digit digits.1
    by_cases zero : d = 0
    · subst zero
      exact ⟨0,leading rfl⟩
    · obtain ⟨m,whole⟩ := str_toString_extend rest digits.2 (Nat.pos_of_ne_zero zero)
      rw [str_toString_digit digit] at whole
      exact ⟨m,whole⟩
  · rintro ⟨n,rfl⟩
    refine ⟨str_toString_ne_nil n,List.all_eq_true.mpr (str_toString_digits n),fun zero => ?_⟩
    by_cases positive : 0 < n
    · exact absurd zero (str_toString_head n positive)
    · rw [Nat.eq_zero_of_not_pos positive]
      rfl

/-- Of the texts that are read as one port, the written number is the numeral. -/
theorem numeral_of_parsePort {text : Str} {zeroAllowed : Bool} {port : UInt16}
    (read : parsePort text zeroAllowed = some port) : text = str (toString port.toNat) ↔ Numeral text := by
  constructor
  · intro written
    exact (numeral_iff text).mpr ⟨port.toNat,written⟩
  · intro numeral
    obtain ⟨n,rfl⟩ := (numeral_iff text).mp numeral
    have small : n ≤ 65535 ∧ UInt16.ofNat n = port := by
      rw [parsePort,stoi_toString] at read
      by_cases int : n ≤ 2147483647
      · rw [if_pos int] at read
        dsimp only at read
        rw [Option.ite_none_left_eq_some,Int.toNat_natCast,not_or] at read
        exact ⟨by omega,Option.some.inj read.2⟩
      · rw [if_neg int] at read
        cases read
    rw [← small.2,UInt16.toNat_ofNat_of_lt' (Nat.lt_succ_of_le small.1)]

namespace Beacon

theorem encode_eq (cluster uuid : Str) (routerPort tapPort : UInt16) : encode cluster uuid routerPort tapPort =
    [bar].intercalate [magic,wireVersion,cluster,uuid,str (toString routerPort.toNat),str (toString tapPort.toNat)] := by
  simp [encode,List.intercalate,List.intersperse]

/-- The fields of an announcement are taken apart where they were put together. -/
theorem splitOn_encode {cluster uuid : Str} (routerPort tapPort : UInt16) (cluster_plain : bar ∉ cluster)
    (uuid_plain : bar ∉ uuid) : (encode cluster uuid routerPort tapPort).splitOn bar =
      [magic,wireVersion,cluster,uuid,str (toString routerPort.toNat),str (toString tapPort.toNat)] := by
  have unbarred (n : Nat) : bar ∉ str (toString n) := fun member =>
    absurd (str_toString_digits n bar member) (by decide)
  rw [encode_eq]
  refine List.splitOn_intercalate bar ?_ (List.cons_ne_nil _ _)
  simp only [List.forall_mem_cons,List.not_mem_nil,false_imp_iff,implies_true,and_true]
  exact ⟨by decide,by decide,cluster_plain,uuid_plain,unbarred _,unbarred _⟩

/-- What a broker announces is what its peers decode. -/
theorem decode_encode (cluster uuid : Str) (routerPort tapPort : UInt16) (cluster_plain : bar ∉ cluster)
    (uuid_plain : bar ∉ uuid) (usable : routerPort ≠ 0) :
    decode (encode cluster uuid routerPort tapPort) = some ⟨cluster,uuid,routerPort,tapPort⟩ := by
  rw [decode,splitOn_encode routerPort tapPort cluster_plain uuid_plain]
  dsimp only
  rw [if_neg (by simp),parsePort_toString routerPort false (.inr usable),parsePort_toString tapPort true (.inl rfl)]

theorem decode_unusable (cluster uuid : Str) (tapPort : UInt16) (cluster_plain : bar ∉ cluster) (uuid_plain : bar ∉ uuid) :
    decode (encode cluster uuid 0 tapPort) = none := by
  have refused : parsePort (str (toString (0 : UInt16).toNat)) false = none := by
    rw [parsePort,stoi_toString]
    rfl
  rw [decode,splitOn_encode 0 tapPort cluster_plain uuid_plain]
  dsimp only
  rw [if_neg (by simp),refused]

/-- The loop of `decode` over what stands behind `start`. -/
def splitFields (text : Str) : List Str :=
  match found : text.findIdx? (· == bar) with
  | none => [text]
  | some pos => text.take pos :: splitFields (text.drop (pos + 1))
termination_by text.length
decreasing_by
  have inside := (List.findIdx?_eq_some_iff_findIdx_eq.mp found).1
  rw [List.length_drop]
  omega

/-- `decode` with the beacon it writes into; `out` is overwritten last. -/
def decodeInto (datagram : Str) (out : Beacon) : Bool × Beacon :=
  match splitFields datagram with
  | [first,version,cluster,uuid,router,tap] =>
    if first ≠ magic ∨ version ≠ wireVersion then (false,out)
    else
      match parsePort router false,parsePort tap true with
      | some routerPort,some tapPort => (true,⟨cluster,uuid,routerPort,tapPort⟩)
      | _,_ => (false,out)
  | _ => (false,out)

/-- The loop cuts the text at its bars, and only there. -/
theorem splitFields_eq (text : Str) : splitFields text = text.splitOn bar ∧ ∀ field ∈ splitFields text, bar ∉ field := by
  fun_induction splitFields text with
  | case1 text found =>
    have plain : bar ∉ text := fun member => by simpa using List.findIdx?_eq_none_iff.mp found bar member
    exact ⟨(List.splitOn_eq_singleton plain).symm,by simpa using plain⟩
  | case2 text pos found ih =>
    obtain ⟨inside,here,before⟩ := List.findIdx?_eq_some_iff_getElem.mp found
    have plain : bar ∉ text.take pos := by
      intro member
      obtain ⟨i,bound,same⟩ := List.mem_take_iff_getElem.mp member
      exact before i (by omega) (by simp [same])
    have cut : text = text.take pos ++ bar :: text.drop (pos + 1) := by
      rw [← beq_iff_eq.mp here,List.getElem_cons_drop,List.take_append_drop]
    refine ⟨?_,List.forall_mem_cons.mpr ⟨plain,ih.2⟩⟩
    conv_rhs => rw [cut,List.splitOn_append_cons_self_of_not_mem plain]
    rw [ih.1]

theorem decodeInto_eq (datagram : Str) (out : Beacon) : decodeInto datagram out =
    match decode datagram with
    | none => (false,out)
    | some parsed => (true,parsed) := by
  unfold decodeInto decode
  rw [(splitFields_eq datagram).1]
  split
  next first version cluster uuid router tap fields =>
    rw [fields]
    dsimp only
    by_cases foreign : first ≠ magic ∨ version ≠ wireVersion
    · rw [if_pos foreign,if_pos foreign]
    · rw [if_neg foreign,if_neg foreign]
      cases parsePort router false <;> cases parsePort tap true <;> rfl
  next other =>
    split
    · rfl
    next heard =>
      split at heard
      next fields => exact (other _ _ _ _ _ _ fields).elim
      · cases heard

/-- A peer hears what a broker announces, unless the router port is 0. -/
theorem decodeInto_encode (cluster uuid : Str) (routerPort tapPort : UInt16) (valid : isValidClusterName cluster = true)
    (plain : bar ∉ uuid) (out : Beacon) :
    (routerPort ≠ 0 → decodeInto (encode cluster uuid routerPort tapPort) out = (true,⟨cluster,uuid,routerPort,tapPort⟩)) ∧
    (routerPort = 0 → (decodeInto (encode cluster uuid routerPort tapPort) out).1 = false) ∧
    ∀ datagram, (decodeInto datagram out).1 = false → (decodeInto datagram out).2 = out := by
  have unbarred : bar ∉ cluster := by
    simp only [isValidClusterName,Bool.and_eq_true,Bool.not_eq_true',List.contains_eq_mem,decide_eq_false_iff_not] at valid
    exact valid.2
  refine ⟨fun usable => ?_,?_,fun datagram failed => ?_⟩
  · rw [decodeInto_eq,decode_encode cluster uuid routerPort tapPort unbarred plain usable]
  · rintro rfl
    rw [decodeInto_eq,decode_unusable cluster uuid tapPort unbarred plain]
  · rw [decodeInto_eq] at failed ⊢
    cases heard : decode datagram with
    | none => rfl
    | some parsed =>
      rw [heard] at failed
      cases failed

/-- Bytes that are no letters in the name, digits in the uuid, and both kinds of port. -/
theorem decodeInto_encode_odd :
    isValidClusterName [0,255,32,49] = true ∧ bar ∉ str "7777" ∧
    decodeInto (encode [0,255,32,49] (str "7777") 65535 0) ⟨[],[],0,0⟩ = (true,⟨[0,255,32,49],str "7777",65535,0⟩) ∧
    (decodeInto (encode [0,255,32,49] (str "7777") 0 9) ⟨[],[],0,0⟩).1 = false :=
  ⟨by decide,by decide,(decodeInto_encode _ _ _ _ (by decide) (by decide) _).1 (by decide),
    (decodeInto_encode _ _ _ _ (by decide) (by decide) _).2.1 rfl⟩

theorem decode_some {datagram : Str} {heard : Beacon} (decoded : decode datagram = some heard) :
    ∃ router tap, datagram.splitOn bar = [magic,wireVersion,heard.cluster,heard.uuid,router,tap] ∧
      parsePort router false = some heard.routerPort ∧ parsePort tap true = some heard.tapPort := by
  unfold decode at decoded
  split at decoded
  next first version cluster uuid router tap fields =>
    split at decoded
    · cases decoded
    next known =>
      rw [not_or,not_not,not_not] at known
      split at decoded
      next routerPort tapPort routed tapped =>
        obtain rfl := Option.some.inj decoded
        exact ⟨router,tap,by rw [fields,known.1,known.2],routed,tapped⟩
      · cases decoded
  · cases decoded

/-- A datagram that is heard is the announcement of what was heard when both its ports are
written as numbers are; `std::stoi` also reads other texts. -/
theorem decodeInto_written_iff (datagram : Str) (out heard : Beacon) (accepted : decodeInto datagram out = (true,heard)) :
    encode heard.cluster heard.uuid heard.routerPort heard.tapPort = datagram ↔
      ∀ field ∈ (datagram.splitOn bar).drop 4, Numeral field := by
  have decoded : decode datagram = some heard := by
    rw [decodeInto_eq] at accepted
    split at accepted
    · cases accepted
    next same =>
      rw [same]
      exact congrArg some (Prod.mk.inj accepted).2
  obtain ⟨router,tap,fields,routed,tapped⟩ := decode_some decoded
  have plain := (splitFields_eq datagram).2
  rw [(splitFields_eq datagram).1,fields] at plain
  have ports : (∀ field ∈ (datagram.splitOn bar).drop 4, Numeral field) ↔
      router = str (toString heard.routerPort.toNat) ∧ tap = str (toString heard.tapPort.toNat) := by
    rw [fields,numeral_of_parsePort routed,numeral_of_parsePort tapped]
    simp
  rw [ports]
  constructor
  · intro same
    have announced := splitOn_encode heard.routerPort heard.tapPort (plain heard.cluster (by simp))
      (plain heard.uuid (by simp))
    rw [same,fields] at announced
    simpa using announced
  · rintro ⟨written,tap_written⟩
    rw [encode_eq,← written,← tap_written,← fields,List.intercalate_splitOn]

theorem decodeInto_written_iff_default :
    encode (str "default") (str "u") 5555 0 = str "WISP|1|default|u|5555|0" :=
  (decodeInto_written_iff _ ⟨[],[],0,0⟩ ⟨str "default",str "u",5555,0⟩ (by
    rw [decodeInto_eq]
    decide)).mpr (by decide)

/-- A datagram with this text for the router port. -/
def announcing (port : Str) : Str := str "WISP|1|c|u|" ++ port ++ str "|0"

/-- A byte behind the number, a sign, a blank and a zero in front of it are all heard as 7777. -/
theorem sloppy_port_heard :
    ([str "7777x",str "+7777",str " 7777",str "07777"].map fun port => decodeInto (announcing port) ⟨[],[],0,0⟩) =
      List.replicate 4 (true,⟨str "c",str "u",7777,0⟩) ∧
    encode (str "c") (str "u") 7777 0 ∉ [str "7777x",str "+7777",str " 7777",str "07777"].map announcing := by
  simp only [decodeInto_eq]
  decide

end Beacon

end Wisp
