import EthernetFirmware.Lockstep
import EthernetFirmware.LogRing

/-!
# Lines of the standard output

The standard output of a core is a device with a buffer of fixed size. A
write goes through its characters one by one and prints the buffer at the
end of a line, at a terminator and when the buffer is full. The terminators
that the device adds lie in the same buffer, behind the text. The indices
of the buffer that it writes are recorded.
-/

namespace EthernetFirmware.CioLines

open Function RemoteConfig GuardedRuns Lockstep RingQueues
open LogRing (Message)

/-- `APP_LOG_CIO_BUF_MAX_SIZE`. -/
def cioBufMaxSize : ℕ := 1024

/-- The character that ends a line. -/
def newline : U8 := 10#8

/-- The device. -/
structure Cio where
  /-- `g_app_log_cio_buf`. -/
  buf : ℕ → U8
  /-- `g_app_log_cio_buf_idx`. -/
  bufIdx : ℕ
  /-- Indices of the buffer written so far. -/
  indices : List ℕ

/-- A character is stored and the index goes on. -/
def Cio.store (d : Cio) (c : U8) : Cio :=
  ⟨update d.buf d.bufIdx c,d.bufIdx + 1,d.indices ++ [d.bufIdx]⟩

/-- The string in the buffer, as `appLogPrintf` gets it. -/
def Cio.string (d : Cio) : Message :=
  ⟨((List.range cioBufMaxSize).map d.buf).takeWhile fun c => c != 0#8,fun h => by
    simpa using List.mem_takeWhile_imp h⟩

/-- The index goes back to the start. -/
def Cio.rewind (d : Cio) : Cio := { d with bufIdx := 0 }

/-- `appLogCioOpen`. -/
def appLogCioOpen (d : Cio) : Cio := d.rewind

/-- `appLogCioClose`, with what it prints. -/
def appLogCioClose (d : Cio) : Option Message × Cio :=
  if 0 < d.bufIdx then (some (d.store 0#8).string,(d.store 0#8).rewind) else (none,d)

/-- A round of the loop of `appLogCioWrite`. -/
def cioWriteChar (d : Cio) (c : U8) : Option Message × Cio :=
  let d := d.store c
  let d := if c = newline then d.store 0#8 else d
  let full := d.bufIdx = cioBufMaxSize - 1
  let d := if full then d.store 0#8 else d
  if c = newline ∨ c = 0#8 ∨ full then (some d.string,d.rewind) else (none,d)

/-- One call after the other on the device, with all that is printed. -/
def inOrder {γ : Type*} (f : γ → Cio → List Message × Cio) :
    List γ → Cio → List Message × Cio
  | [],d => ([],d)
  | x :: xs,d => ((f x d).1 ++ (inOrder f xs (f x d).2).1,(inOrder f xs (f x d).2).2)

/-- `appLogCioWrite`, with all it prints. -/
def appLogCioWrite : List U8 → Cio → List Message × Cio :=
  inOrder fun c d => ((cioWriteChar d c).1.toList,(cioWriteChar d c).2)

/-- The device is opened, written and closed. -/
def session (writes : List (List U8)) (d : Cio) : List Message × Cio :=
  let r := inOrder appLogCioWrite writes (appLogCioOpen d)
  (r.1 ++ (appLogCioClose r.2).1.toList,(appLogCioClose r.2).2)

/-- Calls of the device; a write is one for each of its characters. -/
inductive Call where
  | open
  | char (c : U8)
  | close

/-- What a call prints, and the device it leaves. -/
def cio (d : Cio) : Call → Option Message × Cio
  | .open => (none,appLogCioOpen d)
  | .char c => cioWriteChar d c
  | .close => appLogCioClose d

/-- The empty string has no terminator. -/
theorem zero_not_mem_nil : (0#8 : U8) ∉ [] := List.not_mem_nil

/-- Nothing waits. -/
def emptyMessage : Message := ⟨[],zero_not_mem_nil⟩

@[simp] theorem emptyMessage_val : emptyMessage.val = [] := rfl

/-- A character more; it is not the terminator. -/
def snoc (p : Message) (c : U8) (h : c ≠ 0#8) : Message :=
  ⟨p.val ++ [c],by simpa [p.property] using h.symm⟩

/-- A collector of lines: the text printed so far is gone, the rest waits. -/
def collect (p : Message) : Call → Option Message × Message
  | .open => (none,emptyMessage)
  | .char c =>
    if h : c = 0#8 then (some p,emptyMessage)
    else
      if c = newline ∨ (snoc p c h).val.length = cioBufMaxSize - 1 then
        (some (snoc p c h),emptyMessage)
      else (none,snoc p c h)
  | .close => if p.val = [] then (none,p) else (some p,emptyMessage)

/-- The device with whatever its memory holds at start. -/
def start (mem : ℕ → U8) : Cio := ⟨mem,0,[]⟩

/-- The device has only written its buffer. -/
def InBuffer (d : Cio) : Prop := ∀ i ∈ d.indices, i < cioBufMaxSize

/-- The buffer begins with a text and the index is behind it. -/
structure Filled (d : Cio) (l : List U8) : Prop where
  /-- The text lies in the buffer. -/
  queued : Queued cioBufMaxSize d.buf 0 l
  /-- The next character goes behind it. -/
  bufIdx : d.bufIdx = l.length
  /-- Indices are in range. -/
  indices : InBuffer d

/-- The device holds what the collector waits with, and has room for a
character, the terminator of a line and one more. -/
structure Holds (d : Cio) (p : Message) : Prop where
  /-- The text is in the buffer. -/
  filled : Filled d p.val
  /-- There is room. -/
  room : p.val.length < cioBufMaxSize - 1

section Device

variable {d : Cio} {p t : Message} {l rest : List U8} {c : U8}

theorem Filled.store (h : Filled d l) (hlen : l.length < cioBufMaxSize) (c : U8) :
    Filled (d.store c) (l ++ [c]) := by
  have hplace : place cioBufMaxSize 0 l.length = d.bufIdx := by
    unfold place
    rw [Nat.zero_add,Nat.mod_eq_of_lt hlen,h.bufIdx]
  constructor
  · have hwrite := h.queued.write (y := c) le_rfl hlen
    rw [hplace] at hwrite
    apply hwrite.push
    rw [hplace]
    exact update_self ..
  · rw [List.length_append,List.length_singleton,← h.bufIdx]
    rfl
  · intro i hi
    rcases List.mem_append.mp hi with hi | hi
    · exact h.indices i hi
    · obtain rfl := List.mem_singleton.mp hi
      rw [h.bufIdx]
      exact hlen

/-- The string in the buffer ends at the first terminator. -/
theorem Filled.string_eq (h : Filled d (t.val ++ 0#8 :: rest))
    (hlen : (t.val ++ 0#8 :: rest).length ≤ cioBufMaxSize) : d.string = t := by
  have hprefix : t.val ++ 0#8 :: rest <+: (List.range cioBufMaxSize).map d.buf := by
    rw [List.prefix_iff_getElem?]
    intro i hi
    have hcell := h.queued i _ (List.getElem?_eq_getElem hi)
    unfold place at hcell
    rw [Nat.zero_add,Nat.mod_eq_of_lt (by omega)] at hcell
    rw [List.getElem?_map,List.getElem?_range (by omega),← hcell]
    rfl
  obtain ⟨behind,hbehind⟩ := hprefix
  apply Subtype.ext
  unfold Cio.string
  dsimp only
  rw [← hbehind,List.append_assoc,List.takeWhile_append_of_pos]
  · rw [List.cons_append,List.takeWhile_cons_of_neg (by decide),List.append_nil]
  · intro x hx
    have hne : x ≠ 0#8 := fun h0 => t.property (h0 ▸ hx)
    simpa using hne

/-- What is printed is the text, and the device is empty again. -/
theorem Filled.printed (h : Filled d (t.val ++ 0#8 :: rest))
    (hlen : (t.val ++ 0#8 :: rest).length ≤ cioBufMaxSize) :
    d.string = t ∧ Holds d.rewind emptyMessage :=
  ⟨h.string_eq hlen,⟨queued_nil,rfl,h.indices⟩,by decide⟩

/-- A terminator prints what waits. -/
theorem Holds.terminator (h : Holds d p) :
    (cioWriteChar d 0#8).1 = some p ∧ Holds (cioWriteChar d 0#8).2 emptyMessage := by
  have hroom := h.room
  have hone : Filled (d.store 0#8) (p.val ++ [0#8]) := h.filled.store (by omega) 0#8
  have htwo : Filled ((d.store 0#8).store 0#8) (p.val ++ [0#8] ++ [0#8]) :=
    hone.store (by rw [List.length_append,List.length_singleton]; omega) 0#8
  rw [List.append_assoc] at htwo
  have hlen : (p.val ++ ([0#8] ++ [0#8])).length ≤ cioBufMaxSize := by
    rw [List.length_append]
    simp
    omega
  have hlen' : (p.val ++ [0#8]).length ≤ cioBufMaxSize := by
    rw [List.length_append,List.length_singleton]
    omega
  have hprint : cioWriteChar d 0#8 =
      if (d.store 0#8).bufIdx = cioBufMaxSize - 1 then
        (some ((d.store 0#8).store 0#8).string,((d.store 0#8).store 0#8).rewind)
      else (some (d.store 0#8).string,(d.store 0#8).rewind) := by
    unfold cioWriteChar
    dsimp only
    rw [if_neg (by decide : ¬ (0#8 : U8) = newline),if_pos (Or.inr (Or.inl rfl))]
    split <;> rfl
  rw [hprint]
  split
  · obtain ⟨hstr,hholds⟩ := htwo.printed hlen
    exact ⟨congrArg some hstr,hholds⟩
  · obtain ⟨hstr,hholds⟩ := hone.printed hlen'
    exact ⟨congrArg some hstr,hholds⟩

/-- The end of a line prints what waits and the end itself. -/
theorem Holds.lineEnd (h : Holds d p) (hval : t.val = p.val ++ [newline]) :
    (cioWriteChar d newline).1 = some t ∧
      Holds (cioWriteChar d newline).2 emptyMessage := by
  have hroom := h.room
  have htlen : t.val.length = p.val.length + 1 := by
    rw [hval,List.length_append,List.length_singleton]
  have hone : Filled (d.store newline) t.val := by
    rw [hval]
    exact h.filled.store (by omega) newline
  have htwo : Filled ((d.store newline).store 0#8) (t.val ++ [0#8]) :=
    hone.store (by omega) 0#8
  have hlen : (t.val ++ [0#8]).length = p.val.length + 2 := by
    rw [List.length_append,List.length_singleton,htlen]
  have hprint : cioWriteChar d newline =
      if ((d.store newline).store 0#8).bufIdx = cioBufMaxSize - 1 then
        (some (((d.store newline).store 0#8).store 0#8).string,
          (((d.store newline).store 0#8).store 0#8).rewind)
      else (some ((d.store newline).store 0#8).string,((d.store newline).store 0#8).rewind) := by
    unfold cioWriteChar
    dsimp only
    rw [if_pos rfl,if_pos (Or.inl rfl)]
    split <;> rfl
  rw [hprint]
  split
  · next hfull =>
    rw [htwo.bufIdx,hlen] at hfull
    have hthree := htwo.store (by omega) 0#8
    rw [List.append_assoc] at hthree
    obtain ⟨hstr,hholds⟩ := hthree.printed (by
      change (t.val ++ ([0#8] ++ [0#8])).length ≤ cioBufMaxSize
      rw [← List.append_assoc,List.length_append,hlen,List.length_singleton]
      omega)
    exact ⟨congrArg some hstr,hholds⟩
  · obtain ⟨hstr,hholds⟩ := htwo.printed (by omega)
    exact ⟨congrArg some hstr,hholds⟩

/-- Another character waits, or fills the buffer and is printed. -/
theorem Holds.char (h : Holds d p) (hnul : c ≠ 0#8) (hline : c ≠ newline)
    (hval : t.val = p.val ++ [c]) :
    if t.val.length = cioBufMaxSize - 1 then
      (cioWriteChar d c).1 = some t ∧ Holds (cioWriteChar d c).2 emptyMessage
    else (cioWriteChar d c).1 = none ∧ Holds (cioWriteChar d c).2 t := by
  have hroom := h.room
  have htlen : t.val.length = p.val.length + 1 := by
    rw [hval,List.length_append,List.length_singleton]
  have hone : Filled (d.store c) t.val := by
    rw [hval]
    exact h.filled.store (by omega) c
  have hwrite : cioWriteChar d c =
      if (d.store c).bufIdx = cioBufMaxSize - 1 then
        (some ((d.store c).store 0#8).string,((d.store c).store 0#8).rewind)
      else (none,d.store c) := by
    unfold cioWriteChar
    dsimp only
    rw [if_neg hline]
    by_cases hfull : (d.store c).bufIdx = cioBufMaxSize - 1
    · rw [if_pos (Or.inr (Or.inr hfull)),if_pos hfull,if_pos hfull]
    · have hstay : ¬ (c = newline ∨ c = 0#8 ∨ (d.store c).bufIdx = cioBufMaxSize - 1) := by
        simp [hline,hnul,hfull]
      rw [if_neg hstay,if_neg hfull,if_neg hfull]
  rw [hwrite,hone.bufIdx]
  split
  · have htwo := hone.store (by omega) 0#8
    obtain ⟨hstr,hholds⟩ := htwo.printed (by
      rw [List.length_append,List.length_singleton]
      omega)
    exact ⟨congrArg some hstr,hholds⟩
  · exact ⟨rfl,hone,by omega⟩

/-- Closing the device prints what waits. -/
theorem Holds.close (h : Holds d p) :
    (appLogCioClose d).1 = (collect p .close).1 ∧
      Holds (appLogCioClose d).2 (collect p .close).2 := by
  have hroom := h.room
  have hone : Filled (d.store 0#8) (p.val ++ [0#8]) := h.filled.store (by omega) 0#8
  unfold appLogCioClose collect
  rw [h.filled.bufIdx]
  by_cases hempty : p.val = []
  · rw [if_pos hempty,if_neg (by rw [hempty]; exact Nat.lt_irrefl 0)]
    exact ⟨rfl,h⟩
  · rw [if_neg hempty,if_pos (List.length_pos_of_ne_nil hempty)]
    obtain ⟨hstr,hholds⟩ := hone.printed (by
      rw [List.length_append,List.length_singleton]
      omega)
    exact ⟨congrArg some hstr,hholds⟩

/-- A call does to the device what it does to the collector. -/
theorem Holds.call (h : Holds d p) (e : Call) :
    Holds (cio d e).2 (collect p e).2 ∧ (cio d e).1 = (collect p e).1 := by
  cases e with
  | «open» => exact ⟨⟨⟨queued_nil,rfl,h.filled.indices⟩,Nat.zero_lt_succ _⟩,rfl⟩
  | char c =>
    show Holds (cioWriteChar d c).2 _ ∧ (cioWriteChar d c).1 = _
    unfold collect
    dsimp only
    split
    · next hnul =>
      subst hnul
      exact ⟨h.terminator.2,h.terminator.1⟩
    · next hnul =>
      by_cases hline : c = newline
      · subst hline
        rw [if_pos (Or.inl rfl)]
        have hprint := h.lineEnd (t := snoc p newline hnul) rfl
        exact ⟨hprint.2,hprint.1⟩
      · have hchar := h.char (t := snoc p c hnul) hnul hline rfl
        simp only [hline,false_or]
        split
        · next hfull =>
          rw [if_pos hfull] at hchar
          exact ⟨hchar.2,hchar.1⟩
        · next hfull =>
          rw [if_neg hfull] at hchar
          exact ⟨hchar.2,hchar.1⟩
  | close => exact ⟨h.close.2,h.close.1⟩

theorem holds_start (mem : ℕ → U8) : Holds (start mem) emptyMessage :=
  ⟨⟨queued_nil,rfl,fun _ hi => absurd hi List.not_mem_nil⟩,by decide⟩

end Device

/-- In every run of calls the device prints what a collector of lines
prints, and it writes its buffer only. -/
theorem cio_log (mem : ℕ → U8) (calls : List Call) :
    log cio (start mem) calls = log collect emptyMessage calls ∧
      Along (next cio) InBuffer (start mem) calls := by
  have hagree : Agree cio collect Holds (start mem,emptyMessage) calls :=
    agree_of_step (fun _ e h => h.call e) (holds_start mem) calls
  have hinv : ∀ d e, (∃ p, Holds d p) → True → ∃ p, Holds (next cio d e) p := by
    rintro d e ⟨p,h⟩ -
    exact ⟨_,(h.call e).1⟩
  have hall := along_of_guarded hinv ⟨_,holds_start mem⟩ (guarded_true _ calls)
  refine ⟨hagree.log_eq,along_mono ?_ hall⟩
  rintro d ⟨p,h⟩
  exact h.filled.indices

/-- The characters of a text without its terminators. -/
def plain (buf : List U8) : List U8 := buf.filter fun c => c != 0#8

/-- The texts of messages, one after the other. -/
def joined (ms : List Message) : List U8 := ms.flatMap fun m => m.val

/-- Calls print what waits and their text, as far as it does not wait. -/
def Prints {γ : Type*} (f : γ → Cio → List Message × Cio) (text : γ → List U8) : Prop :=
  ∀ x d p, Holds d p →
    ∃ p', Holds (f x d).2 p' ∧ joined (f x d).1 ++ p'.val = p.val ++ text x

theorem Prints.inOrder {γ : Type*} {f : γ → Cio → List Message × Cio} {text : γ → List U8}
    (h : Prints f text) : Prints (inOrder f) fun xs => xs.flatMap text := by
  intro xs
  induction xs with
  | nil => exact fun d p hp => ⟨p,hp,(List.append_nil _).symm⟩
  | cons x xs ih =>
    intro d p hp
    obtain ⟨p₁,h₁,htext₁⟩ := h x d p hp
    obtain ⟨p₂,h₂,htext₂⟩ := ih (f x d).2 p₁ h₁
    refine ⟨p₂,h₂,?_⟩
    calc joined (CioLines.inOrder f (x :: xs) d).1 ++ p₂.val
        = joined (f x d).1 ++ (joined (CioLines.inOrder f xs (f x d).2).1 ++ p₂.val) := by
          rw [← List.append_assoc]
          exact congrArg (· ++ p₂.val) List.flatMap_append
      _ = joined (f x d).1 ++ p₁.val ++ xs.flatMap text := by rw [htext₂,List.append_assoc]
      _ = p.val ++ (x :: xs).flatMap text := by
          rw [htext₁,List.append_assoc,List.flatMap_cons]

/-- The collector loses no character and adds none. -/
theorem collect_char (p : Message) (c : U8) :
    joined (collect p (.char c)).1.toList ++ (collect p (.char c)).2.val =
      p.val ++ plain [c] := by
  unfold collect plain
  dsimp only
  split
  · next hnul =>
    subst hnul
    simp [joined]
  · next hnul =>
    have hplain : [c].filter (fun c => c != 0#8) = [c] := by simpa using hnul
    rw [hplain]
    split <;> simp [joined,snoc]

theorem prints_appLogCioWrite : Prints appLogCioWrite plain := by
  have hchar : Prints (fun c d => ((cioWriteChar d c).1.toList,(cioWriteChar d c).2))
      fun c => plain [c] := by
    intro c d p h
    obtain ⟨hholds,hprint⟩ := h.call (.char c)
    refine ⟨_,hholds,?_⟩
    rw [← collect_char p c,← hprint]
    rfl
  have htext : ∀ buf : List U8, buf.flatMap (fun c => plain [c]) = plain buf := by
    intro buf
    induction buf with
    | nil => rfl
    | cons c buf ih =>
      rw [List.flatMap_cons,ih]
      exact (List.filter_append [c] buf).symm
  intro buf d p h
  rw [← htext buf]
  exact hchar.inOrder buf d p h

/-- A session prints all that was written in it. -/
theorem session_text {d : Cio} {p : Message} (h : Holds d p) (writes : List (List U8)) :
    joined (session writes d).1 = plain writes.flatten ∧
      Holds (session writes d).2 emptyMessage := by
  have hopen : Holds (appLogCioOpen d) emptyMessage := (h.call .open).1
  obtain ⟨p',hp',hwritten⟩ := prints_appLogCioWrite.inOrder writes _ _ hopen
  have htext : joined (inOrder appLogCioWrite writes (appLogCioOpen d)).1 ++ p'.val =
      plain writes.flatten := by
    unfold plain
    rw [List.filter_flatten,← List.flatMap_def]
    exact hwritten
  obtain ⟨hprint,hholds⟩ := hp'.close
  unfold session
  dsimp only
  rw [← htext,hprint]
  unfold collect at hholds ⊢
  dsimp only at hholds ⊢
  split
  · next hempty =>
    rw [if_pos hempty] at hholds
    obtain rfl : p' = emptyMessage := Subtype.ext hempty
    exact ⟨by simp [joined],hholds⟩
  · next hwaits =>
    rw [if_neg hwaits] at hholds
    exact ⟨by simp [joined],hholds⟩

/-- Over any sessions, the device prints every character written once and in
order, without terminators, however the writes cut the text into pieces. -/
theorem sessions_text (mem : ℕ → U8) (sessions : List (List (List U8))) :
    joined (inOrder session sessions (start mem)).1 = plain sessions.flatten.flatten := by
  have hall : ∀ d p, Holds d p →
      joined (inOrder session sessions d).1 = plain sessions.flatten.flatten := by
    induction sessions with
    | nil => exact fun _ _ _ => rfl
    | cons writes sessions ih =>
      intro d p h
      obtain ⟨htext,hholds⟩ := session_text h writes
      calc joined (inOrder session (writes :: sessions) d).1
          = joined (session writes d).1 ++
              joined (inOrder session sessions (session writes d).2).1 := List.flatMap_append
        _ = plain writes.flatten ++ plain sessions.flatten.flatten := by rw [htext,ih _ _ hholds]
        _ = plain (writes :: sessions).flatten.flatten := by
            rw [List.flatten_cons,List.flatten_append]
            exact (List.filter_append ..).symm
  exact hall _ _ (holds_start mem)

end EthernetFirmware.CioLines
