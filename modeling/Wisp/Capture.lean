import Wisp.Recording

/-! A writer's run over the clock, and what a reader finds in a capture that was cut off. -/
namespace Wisp

open LittleEndian Recording

structure RecordWriter where
  file : Str := magic
  count : Nat := 0
  startMicros : Int := 0

namespace RecordWriter

/-- One call, at a time of the clock; the first starts the offsets, which are differences
in 64 bits. -/
def writeEnvelope (codec : HeaderCodec) (envelope : Envelope) (timestamp : Int) (w : RecordWriter) : RecordWriter :=
  let startMicros := if w.count = 0 then timestamp else w.startMicros
  { file := w.file ++ write codec ⟨envelope,Int.bmod (timestamp - startMicros) (2 ^ 64)⟩
    count := w.count + 1
    startMicros }

def writeAll (codec : HeaderCodec) (writes : List (Envelope × Int)) (w : RecordWriter) : RecordWriter :=
  writes.foldl (fun w call => w.writeEnvelope codec call.1 call.2) w

end RecordWriter

namespace Recording

/-- The records of calls whose offsets count from a start. -/
def recordsFrom (startMicros : Int) (writes : List (Envelope × Int)) : List Record :=
  writes.map fun call => ⟨call.1,Int.bmod (call.2 - startMicros) (2 ^ 64)⟩

/-- The records of a writer's run. -/
def recorded (writes : List (Envelope × Int)) : List Record :=
  recordsFrom ((writes.head?.map Prod.snd).getD 0) writes

theorem writeAll_started (codec : HeaderCodec) (writes : List (Envelope × Int)) {w : RecordWriter} (started : w.count ≠ 0) :
    (w.writeAll codec writes).file = w.file ++ (recordsFrom w.startMicros writes).flatMap (RecordWriter.write codec) := by
  induction writes generalizing w with
  | nil => simp [RecordWriter.writeAll,recordsFrom]
  | cons call rest ih =>
    have next : (w.writeEnvelope codec call.1 call.2).startMicros = w.startMicros := if_neg started
    have written : (w.writeEnvelope codec call.1 call.2).file = w.file ++
        RecordWriter.write codec ⟨call.1,Int.bmod (call.2 - w.startMicros) (2 ^ 64)⟩ := by
      simp only [RecordWriter.writeEnvelope,if_neg started]
    have later := ih (w := w.writeEnvelope codec call.1 call.2) (Nat.succ_ne_zero w.count)
    rw [next,written,List.append_assoc] at later
    exact later

/-- The file holds the records one after another. -/
theorem writeAll_file (codec : HeaderCodec) (writes : List (Envelope × Int)) :
    (RecordWriter.writeAll codec writes {}).file = magic ++ (recorded writes).flatMap (RecordWriter.write codec) := by
  cases writes with
  | nil => simp [RecordWriter.writeAll,recorded,recordsFrom]
  | cons call rest =>
    have later := writeAll_started codec rest (w := ({} : RecordWriter).writeEnvelope codec call.1 call.2) (Nat.succ_ne_zero 0)
    rw [RecordWriter.writeEnvelope,List.append_assoc] at later
    exact later

/-- Where the record at this place begins, which is where the one before it ends. -/
def boundary (codec : HeaderCodec) (records : List Record) (place : Nat) : Nat :=
  8 + ((records.take place).flatMap (RecordWriter.write codec)).length

/-- What a reader that has stopped says. -/
def error : Option Fault → String
  | none => ""
  | some fault => fault.text

theorem error_eq_empty {fault : Option Fault} : error fault = "" ↔ fault = none := by
  rcases fault with _ | fault
  · simp [error]
  · cases fault <;> simp [error,Fault.text]

variable {codec : HeaderCodec}

theorem Reads.unique {file : Str} {records records' : List Record} {fault fault' : Option Fault}
    (reads : Reads codec file records fault) (reads' : Reads codec file records' fault') :
    records = records' ∧ fault = fault' := by
  induction reads generalizing records' with
  | clean read =>
    cases reads' with
    | clean => exact ⟨rfl,rfl⟩
    | fault read' => cases read.symm.trans read'
    | record read' => cases read.symm.trans read'
  | fault read =>
    cases reads' with
    | clean read' => cases read.symm.trans read'
    | fault read' =>
      cases read.symm.trans read'
      exact ⟨rfl,rfl⟩
    | record read' => cases read.symm.trans read'
  | record read later ih =>
    cases reads' with
    | clean read' => cases read.symm.trans read'
    | fault read' => cases read.symm.trans read'
    | record read' later' =>
      cases read.symm.trans read'
      obtain ⟨rfl,rfl⟩ := ih later'
      exact ⟨rfl,rfl⟩

/-- A record cut anywhere inside is found damaged. -/
theorem Fits.read_cut {record : Record} (fits : Fits codec record) {size : Nat} (some : 0 < size)
    (cut : size < (RecordWriter.write codec record).length) :
    ∃ fault, RecordReader.read codec ((RecordWriter.write codec record).take size) = .fault fault := by
  rw [write_eq] at cut ⊢
  rw [List.length_append,fixedPart_length,List.length_append] at cut
  by_cases early : size < 16
  · refine ⟨.midRecord,?_⟩
    have length : (((fixedPart codec record ++
        (Wire.encodeHeader codec record.envelope.header ++ record.envelope.payload)).take size).take 16).length = size := by
      simp
      omega
    rw [RecordReader.read]
    simp only [length]
    rw [if_neg (by omega),if_pos (by omega)]
  · have frames : (fixedPart codec record ++
        (Wire.encodeHeader codec record.envelope.header ++ record.envelope.payload)).take size = fixedPart codec record ++
          (Wire.encodeHeader codec record.envelope.header ++ record.envelope.payload).take (size - 16) := by
      rw [List.take_append,fixedPart_length,List.take_of_length_le (by rw [fixedPart_length]; omega)]
    rw [frames,fits.read_fixed]
    generalize Wire.encodeHeader codec record.envelope.header = headerFrame at cut
    dsimp only
    by_cases inside : size - 16 < headerFrame.length
    · refine ⟨.insideHeader,if_pos ?_⟩
      rw [List.length_take,List.length_take,List.length_append]
      omega
    · refine ⟨.insidePayload,?_⟩
      rw [if_neg,if_pos]
      · rw [List.length_take,List.length_drop,List.length_take,List.length_append]
        omega
      · rw [List.length_take,List.length_take,List.length_append]
        omega

theorem write_length_pos (codec : HeaderCodec) (record : Record) : 0 < (RecordWriter.write codec record).length := by
  rw [write_eq,List.length_append,fixedPart_length]
  omega

theorem boundary_zero (records : List Record) : boundary codec records 0 = 8 := rfl

theorem boundary_le (codec : HeaderCodec) (records : List Record) (place : Nat) : 8 ≤ boundary codec records place := Nat.le_add_right _ _

theorem boundary_cons (record : Record) (records : List Record) (place : Nat) : boundary codec (record :: records) (place + 1) =
    (RecordWriter.write codec record).length + boundary codec records place := by
  rw [boundary,boundary,List.take_succ_cons,List.flatMap_cons,List.length_append]
  omega

/-- How a capture that is cut off after so many bytes is read: the records that are whole
are found, and the end is clean just at a boundary. -/
structure Cut (codec : HeaderCodec) (records : List Record) (size whole : Nat) (fault : Option Fault) : Prop where
  within : ∀ place < records.length, place < whole ↔ boundary codec records (place + 1) ≤ size
  clean : fault = none ↔ ∃ place ≤ records.length, size = boundary codec records place

/-- The cut comes before the end of the first record. -/
theorem Cut.first {record : Record} {records : List Record} {size : Nat} {fault : Option Fault}
    (short : size < (RecordWriter.write codec record).length) (clean : fault = none ↔ size = 0) :
    Cut codec (record :: records) (8 + size) 0 fault where
  within place _ := by
    have start := boundary_le codec records place
    rw [boundary_cons]
    omega
  clean := by
    rw [clean]
    constructor
    · rintro rfl
      exact ⟨0,Nat.zero_le _,rfl⟩
    · rintro ⟨place,_,same⟩
      cases place with
      | zero => rw [boundary_zero] at same; omega
      | succ place =>
        have start := boundary_le codec records place
        rw [boundary_cons] at same
        omega

/-- The first record is whole. -/
theorem Cut.next {records : List Record} {size whole : Nat} {fault : Option Fault}
    (cut : Cut codec records size whole fault) (marked : 8 ≤ size) (record : Record) :
    Cut codec (record :: records) ((RecordWriter.write codec record).length + size) (whole + 1) fault where
  within place inside := by
    rw [boundary_cons]
    cases place with
    | zero => rw [boundary_zero]; omega
    | succ place =>
      have later := cut.within place (Nat.lt_of_succ_lt_succ inside)
      omega
  clean := by
    rw [cut.clean]
    constructor
    · rintro ⟨place,inside,same⟩
      exact ⟨place + 1,Nat.succ_le_succ inside,by rw [boundary_cons,same]⟩
    · rintro ⟨place,inside,same⟩
      have some := write_length_pos codec record
      cases place with
      | zero => rw [boundary_zero] at same; omega
      | succ place =>
        rw [boundary_cons] at same
        exact ⟨place,Nat.le_of_succ_le_succ inside,by omega⟩

theorem reads_cut {records : List Record} (fit : ∀ record ∈ records, Fits codec record) {size : Nat}
    (room : size ≤ (records.flatMap (RecordWriter.write codec)).length) :
    ∃ whole fault, Reads codec ((records.flatMap (RecordWriter.write codec)).take size) (records.take whole) fault ∧
      Cut codec records (8 + size) whole fault := by
  induction records generalizing size with
  | nil =>
    have zero : size = 0 := Nat.le_zero.mp room
    refine ⟨0,none,.clean (by simp [RecordReader.read]),by simp,by simp [boundary,zero]⟩
  | cons record rest ih =>
    rw [List.forall_mem_cons] at fit
    rw [List.flatMap_cons] at room ⊢
    by_cases short : size < (RecordWriter.write codec record).length
    · rw [List.take_append_of_le_length (Nat.le_of_lt short)]
      by_cases zero : size = 0
      · exact ⟨0,none,.clean (by simp [zero,RecordReader.read]),.first short (by simp [zero])⟩
      · obtain ⟨fault,read⟩ := fit.1.read_cut (Nat.pos_of_ne_zero zero) short
        exact ⟨0,fault,.fault read,.first short (by simp [zero])⟩
    · obtain ⟨later,rfl⟩ := Nat.exists_eq_add_of_le (Nat.not_lt.mp short)
      have room : later ≤ (rest.flatMap (RecordWriter.write codec)).length := by
        rw [List.length_append] at room
        omega
      obtain ⟨whole,fault,reads,cut⟩ := ih fit.2 room
      refine ⟨whole + 1,fault,?_,?_⟩
      · rw [List.take_length_add_append]
        exact .record (fit.1.read_write _) reads
      · have next := cut.next (Nat.le_add_right 8 later) record
        rwa [Nat.add_left_comm] at next

theorem fits_recorded {writes : List (Envelope × Int)}
    (fit : ∀ call ∈ writes, (Wire.encodeHeader codec call.1.header).length ≤ maxMessageSizeBytes ∧
      call.1.payload.length ≤ maxMessageSizeBytes) : ∀ record ∈ recorded writes, Fits codec record := by
  intro record member
  obtain ⟨call,listed,rfl⟩ := List.mem_map.mp member
  refine ⟨(fit call listed).1,(fit call listed).2,?_,?_⟩
  · exact Int.le_bmod (by decide)
  · exact Int.bmod_lt (by decide)

/-- A capture reads back to the last whole record. -/
theorem truncated_capture_read (codec : HeaderCodec) (writes : List (Envelope × Int))
    (fit : ∀ call ∈ writes, (Wire.encodeHeader codec call.1.header).length ≤ maxMessageSizeBytes ∧
      call.1.payload.length ≤ maxMessageSizeBytes) (size : Nat) (marked : 8 ≤ size)
    (room : size ≤ (RecordWriter.writeAll codec writes {}).file.length) :
    ∃ rest whole fault, RecordReader.openFile ((RecordWriter.writeAll codec writes {}).file.take size) = some rest ∧
      (∀ found stop, Reads codec rest found stop ↔ found = (recorded writes).take whole ∧ stop = fault) ∧
      (∀ place < writes.length, place < whole ↔ boundary codec (recorded writes) (place + 1) ≤ size) ∧
      (error fault = "" ↔ ∃ place ≤ writes.length, size = boundary codec (recorded writes) place) := by
  rw [writeAll_file] at room ⊢
  obtain ⟨later,rfl⟩ := Nat.exists_eq_add_of_le marked
  have room : later ≤ ((recorded writes).flatMap (RecordWriter.write codec)).length := by
    rw [List.length_append] at room
    exact Nat.le_of_add_le_add_left room
  obtain ⟨whole,fault,reads,cut⟩ := reads_cut (fits_recorded fit) room
  have count : (recorded writes).length = writes.length := List.length_map ..
  have opened (bytes : Str) : RecordReader.openFile ((magic ++ bytes).take (8 + later)) = some (bytes.take later) := by
    have front : (magic ++ bytes).take (magic.length + later) = magic ++ bytes.take later :=
      List.take_length_add_append later
    exact congrArg RecordReader.openFile front
  refine ⟨_,whole,fault,opened _,fun found stop => ⟨fun other => ?_,?_⟩,?_,?_⟩
  · exact other.unique reads
  · rintro ⟨rfl,rfl⟩
    exact reads
  · exact count ▸ cut.within
  · rw [error_eq_empty]
    exact count ▸ cut.clean

/-- A call a second after another, of one byte each. -/
def twoCalls : List (Envelope × Int) :=
  [(⟨{ handlerKey := [107] },[1]⟩,1000000),(⟨{ handlerKey := [107] },[2]⟩,2000000)]

theorem truncated_capture_read_payload :
    ∃ rest whole fault, RecordReader.openFile ((RecordWriter.writeAll .plain twoCalls {}).file.take 59) = some rest ∧
      (∀ found stop, Reads .plain rest found stop ↔ found = (recorded twoCalls).take whole ∧ stop = fault) ∧
      (∀ place < twoCalls.length, place < whole ↔ boundary .plain (recorded twoCalls) (place + 1) ≤ 59) ∧
      (error fault = "" ↔ ∃ place ≤ twoCalls.length, 59 = boundary .plain (recorded twoCalls) place) :=
  truncated_capture_read .plain twoCalls (by decide) 59 (by decide) (by decide +kernel)

end Recording

end Wisp
