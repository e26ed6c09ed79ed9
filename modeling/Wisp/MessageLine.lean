import Wisp.AnyFrame
import Wisp.BeaconFormat
import Wisp.Utf8

/-! The line `wisp-cli` prints for a message. The payload is rendered, escaped and cut to a
limit; the topic, the handler key and the sender id go into their columns as they came. -/
namespace Wisp

namespace Cli

inductive PayloadFormat where
  | auto
  | text
  | hex
  | raw
  deriving DecidableEq, Repr

structure Options where
  format : PayloadFormat := .auto
  maxBytes : Int32 := 64

/-- The local time of day. -/
structure Clock where
  hour : Nat
  minute : Nat
  second : Nat
  millis : Nat

/-- Neither below 0x20 nor 0x7f. -/
def printable (byte : UInt8) : Bool := decide (0x20 ≤ byte) && byte != 0x7f

def Clean (text : Str) : Prop := text.all printable = true

instance (text : Str) : Decidable (Clean text) := inferInstanceAs (Decidable (_ = true))

/-- One line: a newline at the end, and no other byte a terminal acts on. -/
def OneLine (text : Str) : Prop := text.getLast? = some 10 ∧ Clean text.dropLast

instance (text : Str) : Decidable (OneLine text) := inferInstanceAs (Decidable (_ ∧ _))

/-- `c_str()` as `printf` reads it, up to the first NUL. -/
def cstr (text : Str) : Str := text.takeWhile (· != 0)

/-- `%-24s` and its like. -/
def padRight (width : Nat) (text : Str) : Str := text ++ List.replicate (width - text.length) 32

/-- `%6zu` with blanks, `setw` with zeros. -/
def padLeft (fill : UInt8) (width : Nat) (text : Str) : Str := List.replicate (width - text.length) fill ++ text

def ellipsis : Str := [0xe2,0x80,0xa6]
def arrow : Str := [0xe2,0x86,0x92]

def hhmmssMillis (clock : Clock) : Str :=
  padLeft 48 2 (str (toString clock.hour)) ++ str ":" ++ padLeft 48 2 (str (toString clock.minute)) ++ str ":" ++
    padLeft 48 2 (str (toString clock.second)) ++ str "." ++ padLeft 48 3 (str (toString clock.millis))

/-- `static_cast<std::size_t>` of an int: a negative one becomes large. -/
def asSize (limit : Int32) : Nat := limit.toInt64.toUInt64.toNat

def hexDigits : Str := str "0123456789abcdef"

def hexByte (byte : UInt8) : Str := [hexDigits.getD (byte >>> 4).toNat 0,hexDigits.getD (byte &&& 0x0f).toNat 0]

def escapeByte (byte : UInt8) : Str :=
  if byte = 10 then str "\\n"
  else if byte = 13 then str "\\r"
  else if byte = 9 then str "\\t"
  else if byte < 0x20 ∨ byte = 0x7f then str "\\x" ++ hexByte byte
  else [byte]

def escapeControlCharacters (text : Str) : Str := text.flatMap escapeByte

def truncationNote (total shown : Nat) : Str :=
  if total ≤ shown then [] else str " " ++ ellipsis ++ str " (+" ++ str (toString (total - shown)) ++ str " bytes)"

def isDisplayable (byte : UInt8) : Bool := decide (0x20 ≤ byte) || byte == 9 || byte == 10 || byte == 13

def looksLikeText (payload : Str) : Bool := payload.all isDisplayable

def toHex (bytes : Str) (maxBytes : Int32) : Str :=
  let shown := min bytes.length (asSize maxBytes)
  (bytes.take shown).zipIdx.flatMap (fun entry => (if entry.2 > 0 then [32] else []) ++ hexByte entry.1) ++
    truncationNote bytes.length shown

/-- `print` is what the types compiled in make of a type name and bytes: nothing for an
unknown type or bytes that do not parse, and otherwise the printer's text. -/
def renderPackedAny (print : Str → Str → Option Str) (payload : Str) : Str :=
  let claimed := AnyFrame.typeNameOf payload
  if claimed.1.isEmpty then []
  else
    match print claimed.1 claimed.2 with
    | none => []
    | some text => claimed.1 ++ str " \x7b " ++ text ++ str "\x7d"

def decodedWidthFactor : Nat := 4

/-- What the formats come to that show the payload as text. -/
def renderText (payload : Str) (maxBytes : Int32) : Str :=
  let shown := min payload.length (asSize maxBytes)
  escapeControlCharacters (payload.take shown) ++ truncationNote payload.length shown

def renderPayload (print : Str → Str → Option Str) (payload : Str) (format : PayloadFormat) (maxBytes : Int32) : Str :=
  if payload.isEmpty then str "(empty)"
  else
    match format with
    | .hex => toHex payload maxBytes
    | .auto =>
      let decoded := renderPackedAny print payload
      if !decoded.isEmpty then
        -- the product is taken in 64 bits
        let shown := min decoded.length (asSize maxBytes * decodedWidthFactor % 2 ^ 64)
        escapeControlCharacters (decoded.take shown) ++ if shown < decoded.length then str " " ++ ellipsis else []
      else if !looksLikeText payload then toHex payload maxBytes
      else renderText payload maxBytes
    | .text => renderText payload maxBytes
    | .raw => renderText payload maxBytes

def routingLabel (header : MessageHeader) : Str :=
  if header.topic.isEmpty || header.topic == header.handlerKey then header.handlerKey
  else header.handlerKey ++ str " " ++ arrow ++ str " " ++ header.topic

/-- What `printMessageLine` writes; of a raw message only its payload. -/
def printMessageLine (print : Str → Str → Option Str) (clock : Clock) (header : MessageHeader) (payload : Str)
    (opts : Options) : Str :=
  if opts.format = .raw then payload
  else
    hhmmssMillis clock ++ str "  " ++ padRight 24 (cstr header.topic) ++ str " " ++
      padRight 24 (cstr header.senderId) ++ str " " ++
      cstr (renderPayload print payload opts.format opts.maxBytes) ++ [10]

/-- What `runTap` writes for one message of `wireBytes` bytes on the wire. -/
def runTap (print : Str → Str → Option Str) (clock : Clock) (env : Envelope) (wireBytes : Nat) (opts : Options) : Str :=
  if opts.format = .raw then env.payload
  else
    hhmmssMillis clock ++ str "  " ++ padRight 28 (cstr (routingLabel env.header)) ++ str " " ++
      padRight 24 (cstr env.header.senderId) ++ str " " ++ padLeft 32 6 (str (toString wireBytes)) ++ str "B  " ++
      cstr (renderPayload print env.payload opts.format opts.maxBytes) ++ [10]

theorem oneLine_append (body : Str) : OneLine (body ++ [10]) ↔ Clean body := by
  simp [OneLine]

theorem clean_append (text more : Str) : Clean (text ++ more) ↔ Clean text ∧ Clean more := by
  simp [Clean,List.all_append]

theorem clean_replicate (count : Nat) (byte : UInt8) (clean : printable byte = true) :
    Clean (List.replicate count byte) := by
  rw [Clean,List.all_replicate,clean]
  simp

theorem padRight_clean (width : Nat) (text : Str) : Clean (padRight width text) ↔ Clean text := by
  rw [padRight,clean_append]
  exact and_iff_left (clean_replicate _ 32 rfl)

theorem padLeft_clean (fill : UInt8) (width : Nat) (text : Str) (clean : printable fill = true) :
    Clean (padLeft fill width text) ↔ Clean text := by
  rw [padLeft,clean_append]
  exact and_iff_right (clean_replicate _ fill clean)

theorem cstr_clean {text : Str} (clean : Clean text) : Clean (cstr text) := by
  apply List.all_eq_true.mpr
  intro byte member
  exact List.all_eq_true.mp clean byte ((List.takeWhile_prefix _).subset member)

theorem decimal_clean (n : Nat) : Clean (str (toString n)) := by
  apply List.all_eq_true.mpr
  intro byte member
  have digit := str_toString_digits n byte member
  rw [isDigit,Bool.and_eq_true,decide_eq_true_iff,decide_eq_true_iff,UInt8.le_iff_toNat_le,
    UInt8.le_iff_toNat_le] at digit
  obtain ⟨least,most⟩ : 48 ≤ byte.toNat ∧ byte.toNat ≤ 57 := digit
  rw [printable,Bool.and_eq_true,decide_eq_true_iff,bne_iff_ne,UInt8.le_iff_toNat_le]
  refine ⟨?_,?_⟩
  · change 32 ≤ byte.toNat
    omega
  · rintro rfl
    exact absurd most (by decide)

theorem hhmmssMillis_clean (clock : Clock) : Clean (hhmmssMillis clock) := by
  have field (width n : Nat) : Clean (padLeft 48 width (str (toString n))) :=
    (padLeft_clean 48 width _ rfl).mpr (decimal_clean n)
  have colon : Clean (str ":") := by decide
  have point : Clean (str ".") := by decide
  simp only [hhmmssMillis,clean_append,field,colon,point,and_self]

theorem hexDigits_clean {index : Nat} (within : index < 16) : printable (hexDigits.getD index 0) = true := by
  have clean : Clean hexDigits := by decide
  rw [List.getD_eq_getElem _ _ within]
  exact List.all_eq_true.mp clean _ (List.getElem_mem within)

theorem hexByte_clean (byte : UInt8) : Clean (hexByte byte) := by
  have high : (byte >>> 4).toNat < 16 := by
    have small := byte.toNat_lt
    rw [UInt8.toNat_shiftRight,Nat.shiftRight_eq_div_pow]
    change byte.toNat / 16 < 16
    omega
  have low : (byte &&& 0x0f).toNat < 16 := by
    rw [UInt8.toNat_and]
    exact Nat.lt_succ_of_le Nat.and_le_right
  rw [Clean,hexByte,List.all_cons,List.all_cons,hexDigits_clean high,hexDigits_clean low]
  rfl

theorem escapeByte_clean (byte : UInt8) : Clean (escapeByte byte) := by
  unfold escapeByte
  split
  · decide
  split
  · decide
  split
  · decide
  split
  · exact (clean_append _ _).mpr ⟨by decide,hexByte_clean byte⟩
  next kept =>
    rw [not_or,UInt8.not_lt] at kept
    simp [Clean,printable,kept.1,kept.2]

theorem escape_clean (text : Str) : Clean (escapeControlCharacters text) := by
  rw [Clean,escapeControlCharacters,List.all_flatMap]
  exact List.all_eq_true.mpr fun byte _ => escapeByte_clean byte

theorem truncationNote_clean (total shown : Nat) : Clean (truncationNote total shown) := by
  unfold truncationNote
  split
  · decide
  · have front : Clean (str " " ++ ellipsis ++ str " (+") := by decide
    have back : Clean (str " bytes)") := by decide
    simp only [clean_append] at front ⊢
    exact ⟨⟨front,decimal_clean _⟩,back⟩

theorem toHex_clean (bytes : Str) (maxBytes : Int32) : Clean (toHex bytes maxBytes) := by
  unfold toHex
  refine (clean_append _ _).mpr ⟨?_,truncationNote_clean _ _⟩
  rw [Clean,List.all_flatMap]
  apply List.all_eq_true.mpr
  intro entry _
  refine (clean_append _ _).mpr ⟨?_,hexByte_clean entry.1⟩
  split <;> decide

theorem renderText_clean (payload : Str) (maxBytes : Int32) : Clean (renderText payload maxBytes) :=
  (clean_append _ _).mpr ⟨escape_clean _,truncationNote_clean _ _⟩

/-- However a payload is rendered, whatever the printer made of it. -/
theorem renderPayload_clean (print : Str → Str → Option Str) (payload : Str) (format : PayloadFormat)
    (maxBytes : Int32) : Clean (renderPayload print payload format maxBytes) := by
  unfold renderPayload
  split
  · decide
  cases format with
  | hex => exact toHex_clean payload maxBytes
  | text => exact renderText_clean payload maxBytes
  | raw => exact renderText_clean payload maxBytes
  | auto =>
    dsimp only
    split
    · refine (clean_append _ _).mpr ⟨escape_clean _,?_⟩
      split <;> decide
    · split
      · exact toHex_clean payload maxBytes
      · exact renderText_clean payload maxBytes

section Line

variable (print : Str → Str → Option Str) (clock : Clock) (payload : Str) {opts : Options}

theorem printMessageLine_iff (header : MessageHeader) (shown : opts.format ≠ .raw) :
    OneLine (printMessageLine print clock header payload opts) ↔
      Clean (cstr header.topic) ∧ Clean (cstr header.senderId) := by
  have two : Clean (str "  ") := by decide
  have one : Clean (str " ") := by decide
  rw [printMessageLine,if_neg shown,oneLine_append]
  simp only [clean_append,padRight_clean,hhmmssMillis_clean,two,one,
    cstr_clean (renderPayload_clean print payload opts.format opts.maxBytes),true_and,and_true]

theorem runTap_iff (env : Envelope) (wireBytes : Nat) (shown : opts.format ≠ .raw) :
    OneLine (runTap print clock env wireBytes opts) ↔
      Clean (cstr (routingLabel env.header)) ∧ Clean (cstr env.header.senderId) := by
  have two : Clean (str "  ") := by decide
  have one : Clean (str " ") := by decide
  have unit : Clean (str "B  ") := by decide
  have size : Clean (padLeft 32 6 (str (toString wireBytes))) := (padLeft_clean 32 6 _ rfl).mpr (decimal_clean _)
  rw [runTap,if_neg shown,oneLine_append]
  simp only [clean_append,padRight_clean,hhmmssMillis_clean,two,one,unit,size,
    cstr_clean (renderPayload_clean print env.payload opts.format opts.maxBytes),true_and,and_true]

end Line

/-- In every format but raw, for every payload, byte limit and printer: a message is one
clean line exactly if the columns hold nothing a terminal acts on, that is the topic and
the sender id, or the label and the sender id in a tap. -/
theorem message_line_iff (print : Str → Str → Option Str) (clock : Clock) (env : Envelope) (wireBytes : Nat)
    (opts : Options) (shown : opts.format ≠ .raw) :
    (OneLine (printMessageLine print clock env.header env.payload opts) ↔
      Clean (cstr env.header.topic) ∧ Clean (cstr env.header.senderId)) ∧
    (OneLine (runTap print clock env wireBytes opts) ↔
      Clean (cstr (routingLabel env.header)) ∧ Clean (cstr env.header.senderId)) :=
  ⟨printMessageLine_iff print clock env.payload env.header shown,runTap_iff print clock env wireBytes shown⟩

/-- A payload that would clear the screen is printed on one line in either place. -/
theorem message_line_iff_payload :
    let env : Envelope := ⟨{ handlerKey := str "k", senderId := str "s", topic := str "t" },[27,91,50,74,10]⟩
    OneLine (printMessageLine (fun _ _ => none) ⟨12,0,0,0⟩ env.header env.payload { format := .text }) ∧
      OneLine (runTap (fun _ _ => none) ⟨12,0,0,0⟩ env 9 { format := .text }) := by
  have lines := message_line_iff (fun _ _ => none) ⟨12,0,0,0⟩
    ⟨{ handlerKey := str "k", senderId := str "s", topic := str "t" },[27,91,50,74,10]⟩ 9 { format := .text } (by decide)
  exact ⟨lines.1.mpr (by decide),lines.2.mpr (by decide)⟩

/-- The same bytes in the topic, which is a text in UTF-8, are written to the terminal. -/
theorem topic_breaks_line :
    let topic : Str := [27,91,50,74,10]
    let env : Envelope := ⟨{ handlerKey := topic, senderId := str "s", topic },str "p"⟩
    Utf8.Valid topic ∧ ¬OneLine (printMessageLine (fun _ _ => none) ⟨12,0,0,0⟩ env.header env.payload {}) ∧
      ¬OneLine (runTap (fun _ _ => none) ⟨12,0,0,0⟩ env 9 {}) := by
  refine ⟨Utf8.valid_ascii (by decide),?_,?_⟩
  · rw [printMessageLine_iff _ _ _ _ (by decide)]
    decide
  · rw [runTap_iff _ _ _ _ (by decide)]
    decide

end Cli

end Wisp
