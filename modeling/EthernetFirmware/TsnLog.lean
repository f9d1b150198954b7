import Mathlib.Data.List.Basic
import EthernetFirmware.CArrays
import EthernetFirmware.GuardedRuns
import EthernetFirmware.RemoteConfig

/-!
# Log pipeline of the TSN stack

Log calls append their text and an end-of-line to a buffer, under a mutex.
The log task moves the buffer's content to a second buffer under the mutex,
and prints that in chunks without it. Buffers hold strings, so a buffer is
modelled by its text.
-/

namespace EthernetFirmware.TsnLog

open RemoteConfig GuardedRuns CArrays

/-- `ETHFW_TSN_BUFFER_SIZE`. -/
def bufferSize : ℕ := 8960

/-- `ETHFW_TSN_TRACE_MAX_BUFFER_SIZE`. -/
def traceMaxBufferSize : ℕ := 250

/-- `ETHFW_LOG_BUFFER_ENDLINE`. -/
def endline : List U8 := [13]

/-- The text written where the buffer has no room, `"log overflow!\n"`. -/
def overflowText : List U8 :=
  [0x6C,0x6F,0x67,0x20,0x6F,0x76,0x65,0x72,0x66,0x6C,0x6F,0x77,0x21,0x0A]

/-- Text that `snprintf` leaves in a buffer of `size` characters. -/
def snprintf (size : ℕ) (text : List U8) : List U8 := text.take (size - 1)

/-- Where `EthFwTsn_logTask` stands. -/
inductive TaskPhase where
  /-- Before its locked step. -/
  | idle
  /-- Printing the text from an index on. -/
  | printing (printBuf : List U8) (i : ℕ)

/-- The pipeline, and what went into it and came out. -/
structure Pipeline where
  /-- Text of `logBuf`. -/
  logBuf : List U8
  /-- Where the log task stands. -/
  phase : TaskPhase
  /-- All chunks printed so far. -/
  printed : List U8
  /-- All strings logged so far, each with its end-of-line. -/
  logged : List U8
  /-- Some call found no room. -/
  overflowed : Bool

/-- Steps of the callers and of the log task. -/
inductive Step where
  /-- `EthFwTsn_logBuffer`. -/
  | logBuffer (str : CString U8)
  /-- Locked step of the log task. -/
  | copy
  /-- One chunk. -/
  | chunk

/-- `EthFwTsn_logBuffer`. -/
def logBuffer (s : Pipeline) (str : CString U8) : Pipeline :=
  if 0 < str.chars.length then
    let bufSizeLeft := bufferSize - s.logBuf.length
    let s := { s with logged := s.logged ++ (str.chars ++ endline) }
    if str.chars.length < bufSizeLeft then
      { s with logBuf := s.logBuf ++ snprintf bufSizeLeft (str.chars ++ endline) }
    else { s with logBuf := snprintf bufferSize overflowText, overflowed := true }
  else s

/-- Locked step of `EthFwTsn_logTask`. -/
def copy (s : Pipeline) : Pipeline :=
  match s.phase with
  | .idle =>
    if 0 < s.logBuf.length then { s with phase := .printing s.logBuf 0, logBuf := [] } else s
  | .printing _ _ => s

/-- One round of the chunk loop of `EthFwTsn_logTask`. -/
def chunk (s : Pipeline) : Pipeline :=
  match s.phase with
  | .idle => s
  | .printing printBuf i =>
    let text := printBuf.drop i
    let next := i + traceMaxBufferSize
    { s with
      printed := s.printed ++ snprintf traceMaxBufferSize text
      phase := if 0 < text.length ∧ next ≤ printBuf.length then .printing printBuf next else .idle }

/-- Any interleaving of callers and task. -/
def step (s : Pipeline) : Step → Pipeline
  | .logBuffer str => logBuffer s str
  | .copy => copy s
  | .chunk => chunk s

/-- The pipeline as it starts. -/
def start : Pipeline := ⟨[],.idle,[],[],false⟩

/-- Text of the print buffer still to be printed. -/
def toPrint (s : Pipeline) : List U8 :=
  match s.phase with
  | .idle => []
  | .printing printBuf i => printBuf.drop i

/-- Nothing is lost or repeated, unless a call found no room. -/
def Lossless (s : Pipeline) : Prop :=
  s.overflowed = false → s.printed ++ toPrint s ++ s.logBuf = s.logged

/-- The chunk loop ends. -/
def LoopEnds (s : Pipeline) : Prop :=
  ∃ n, (run step s (List.replicate n .chunk)).phase = .idle

/-- The pipeline is right: lossless, with a chunk loop that ends. -/
def PipelineOk (s : Pipeline) : Prop := Lossless s ∧ LoopEnds s

/-- The condition on a step, as long as no call found no room: a string that
fits leaves room for its end-of-line, and a chunk is the last one. -/
def Regular (s : Pipeline) : Step → Prop
  | .logBuffer str =>
    s.overflowed = false → 0 < str.chars.length →
      s.logBuf.length + str.chars.length + 1 ≠ bufferSize
  | .copy => True
  | .chunk => s.overflowed = false → (toPrint s).length < traceMaxBufferSize

section Steps

variable {s : Pipeline}

/-- Text left over after a chunk. -/
theorem toPrint_chunk (s : Pipeline) :
    toPrint (chunk s) = (toPrint s).drop traceMaxBufferSize := by
  unfold toPrint chunk
  cases hphase : s.phase with
  | idle =>
    dsimp only
    rw [hphase,List.drop_nil]
  | printing printBuf i =>
    dsimp only
    rw [List.drop_drop]
    split_ifs with hmore
    · rfl
    · rw [List.length_drop] at hmore
      refine (List.drop_eq_nil_iff.mpr ?_).symm
      unfold traceMaxBufferSize at hmore ⊢
      omega

theorem printed_chunk (s : Pipeline) :
    (chunk s).printed = s.printed ++ snprintf traceMaxBufferSize (toPrint s) := by
  unfold toPrint chunk
  cases s.phase with
  | idle => simp [snprintf]
  | printing printBuf i => rfl

/-- What a chunk leaves in place. -/
theorem chunk_rest (s : Pipeline) :
    (chunk s).logBuf = s.logBuf ∧ (chunk s).logged = s.logged ∧
    (chunk s).overflowed = s.overflowed := by
  unfold chunk
  split <;> exact ⟨rfl,rfl,rfl⟩

/-- A text in a chunk and a rest behind the chunk's buffer size is the whole
text exactly when it is shorter than the buffer. -/
theorem take_drop_eq_iff {size : ℕ} (hsize : 0 < size) (text : List U8) :
    text.take (size - 1) ++ text.drop size = text ↔ text.length < size := by
  constructor
  · intro h
    have hlen := congrArg List.length h
    rw [List.length_append,List.length_take,List.length_drop] at hlen
    omega
  · intro h
    rw [List.take_of_length_le (by omega),List.drop_eq_nil_iff.mpr (by omega),List.append_nil]

/-- A chunk loses nothing exactly when it is the last one. -/
theorem lossless_chunk_iff (h : Lossless s) :
    Lossless (chunk s) ↔ Regular s .chunk := by
  obtain ⟨hlogBuf,hlogged,hover⟩ := chunk_rest s
  unfold Lossless Regular
  rw [hover]
  refine imp_congr_right fun hno => ?_
  have hsize : 0 < traceMaxBufferSize := by unfold traceMaxBufferSize; omega
  rw [printed_chunk,toPrint_chunk,hlogBuf,hlogged,← h hno,List.append_left_inj,
    List.append_assoc,List.append_right_inj]
  exact take_drop_eq_iff hsize _

/-- Moving the text loses nothing. -/
theorem lossless_copy (h : Lossless s) : Lossless (copy s) := by
  unfold copy
  cases hphase : s.phase with
  | printing printBuf i => exact h
  | idle =>
    dsimp only
    split_ifs
    · intro hno
      have hold := h hno
      unfold toPrint at hold ⊢
      rw [hphase] at hold
      simpa using hold
    · exact h

/-- A log call loses nothing exactly when its end-of-line fits, or nothing
of it does. -/
theorem lossless_logBuffer_iff (h : Lossless s) (str : CString U8) :
    Lossless (logBuffer s str) ↔ Regular s (.logBuffer str) := by
  unfold Regular logBuffer
  dsimp only
  by_cases hpos : 0 < str.chars.length
  · rw [if_pos hpos]
    by_cases hfits : str.chars.length < bufferSize - s.logBuf.length
    · rw [if_pos hfits]
      unfold Lossless
      dsimp only
      refine imp_congr_right fun hno => ?_
      have hend : (str.chars ++ endline).length = str.chars.length + 1 := by
        rw [List.length_append]
        rfl
      have hold := h hno
      change s.printed ++ toPrint s ++ (s.logBuf ++ _) = _ ↔ _
      rw [← List.append_assoc,hold,List.append_right_inj]
      unfold snprintf
      rw [List.take_eq_self_iff,hend]
      omega
    · rw [if_neg hfits]
      refine iff_of_true (fun hno => by cases hno) fun _ _ => ?_
      omega
  · rw [if_neg hpos]
    exact iff_of_true h fun _ hlt => absurd hlt hpos

/-- Every chunk loop ends. -/
theorem loopEnds (s : Pipeline) : LoopEnds s := by
  cases hphase : s.phase with
  | idle => exact ⟨0,hphase⟩
  | printing printBuf i =>
    induction hm : printBuf.length + 1 - i using Nat.strongRecOn generalizing s i with
    | _ m ih =>
      by_cases hmore : 0 < (printBuf.drop i).length ∧ i + traceMaxBufferSize ≤ printBuf.length
      · have hnext : (chunk s).phase = .printing printBuf (i + traceMaxBufferSize) := by
          unfold chunk
          rw [hphase]
          exact if_pos hmore
        have hsize : 0 < traceMaxBufferSize := by unfold traceMaxBufferSize; omega
        obtain ⟨n,hn⟩ := ih _ (by omega) (chunk s) _ hnext rfl
        exact ⟨n + 1,hn⟩
      · refine ⟨1,?_⟩
        change (chunk s).phase = .idle
        unfold chunk
        rw [hphase]
        exact if_neg hmore

/-- One step keeps the pipeline right exactly under its condition. -/
theorem step_ok_iff (h : PipelineOk s) (e : Step) : PipelineOk (step s e) ↔ Regular s e := by
  have hloss : Lossless (step s e) ↔ Regular s e := by
    cases e with
    | logBuffer str => exact lossless_logBuffer_iff h.1 str
    | copy => exact iff_of_true (lossless_copy h.1) trivial
    | chunk => exact lossless_chunk_iff h.1
  rw [← hloss]
  exact and_iff_left (loopEnds _)

theorem ok_start : PipelineOk start := ⟨fun _ => rfl,loopEnds _⟩

end Steps

/-- In every interleaving of log calls and steps of the log task, printed and
waiting text together are what was logged, after every step until a call
finds no room, exactly when every string that fits leaves room for its
end-of-line and every text printed fits one chunk. -/
theorem log_lossless_iff (es : List Step) :
    Along step PipelineOk start es ↔ Guarded step Regular start es :=
  along_iff_guarded (fun _ h => h) (fun _ _ h hregular => (step_ok_iff h _).mpr hregular)
    (fun _ e h => step_ok_iff h e) ok_start

/-- Text to print after one call. -/
theorem toPrint_first {str : CString U8} (hpos : 0 < str.chars.length)
    (hfits : str.chars.length + 1 < bufferSize) :
    toPrint (copy (logBuffer start str)) = str.chars ++ endline ∧
    (copy (logBuffer start str)).overflowed = false := by
  have hend : (str.chars ++ endline).length = str.chars.length + 1 := by
    rw [List.length_append]
    rfl
  have hlog : logBuffer start str =
      { start with logBuf := str.chars ++ endline, logged := str.chars ++ endline } := by
    unfold logBuffer
    rw [if_pos hpos]
    dsimp only [start,List.length_nil,List.nil_append]
    rw [if_pos (by omega)]
    unfold snprintf
    rw [List.take_of_length_le (by omega)]
  rw [hlog]
  unfold copy toPrint
  dsimp only [start]
  rw [if_pos (by omega)]
  exact ⟨rfl,rfl⟩

/-- A string one chunk long. -/
def longString : CString U8 where
  chars := List.replicate 250 0x61
  noNul h := absurd (List.eq_of_mem_replicate h) (by decide)

/-- Printing a logged string one chunk long loses a character. -/
theorem chunk_border_loses_character :
    ¬ Along step PipelineOk start [.logBuffer longString,.copy,.chunk] := by
  intro hok
  have hlast := (step_ok_iff hok.2.2.1 .chunk).mp hok.2.2.2
  have hlen : longString.chars.length = 250 := List.length_replicate
  have hfits : longString.chars.length + 1 < bufferSize := by
    unfold bufferSize
    omega
  obtain ⟨htext,hover⟩ := toPrint_first (by omega) hfits
  have hshort : (toPrint (copy (logBuffer start longString))).length < traceMaxBufferSize :=
    hlast hover
  rw [htext,List.length_append,hlen] at hshort
  unfold traceMaxBufferSize at hshort
  omega

end EthernetFirmware.TsnLog
