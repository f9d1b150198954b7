import EthernetFirmware.PackedFields
import EthernetFirmware.RemoteConfig
import EthernetFirmware.TsnLog

/-!
# Error codes of the trace

A trace with a status other than success hands an error code to the
extended trace callback: module, line and status of the trace in three
fields of a word, which the application reads back with the extraction
macros. The status is cut to a byte; module and line are shifted as they
are, so that a line of more than twelve bits reaches into the module.
-/

namespace EthernetFirmware.TraceErrorCodes

open RemoteConfig PackedFields
open TsnLog (snprintf)

/-- `ETHFW_CFG_PRINT_BUF_LEN`. -/
def printBufLen : ℕ := 1024

/-- `ETHFW_CFG_TRACE_FORMAT_DFLT_TS`, the first format with a timestamp. -/
def traceFormatDfltTs : ℕ := 4

/-- `ETHFW_CFG_TRACE_LINE_TERM`, as it is by default. -/
def traceLineTerm : List U8 := [0x0D,0x0A]

/-- `ETHFW_TRACE_ERRCODE_MOD_OFFSET`. -/
def errcodeModOffset : ℕ := 20

/-- `ETHFW_TRACE_ERRCODE_LINE_OFFSET`. -/
def errcodeLineOffset : ℕ := 8

/-- `ETHFW_TRACE_ERRCODE_STATUS_OFFSET`. -/
def errcodeStatusOffset : ℕ := 0

/-- `ETHFW_TRACE_ERRCODE_MOD_MASK`. -/
def errcodeModMask : U32 := 0xFFF00000

/-- `ETHFW_TRACE_ERRCODE_LINE_MASK`. -/
def errcodeLineMask : U32 := 0x000FFF00

/-- `ETHFW_TRACE_ERRCODE_STATUS_MASK`. -/
def errcodeStatusMask : U32 := 0x000000FF

/-- `ETHFW_TRACE_ERRCODE`. -/
def errcode (mod line err : U32) : U32 :=
  mod <<< errcodeModOffset ||| line <<< errcodeLineOffset ||| err <<< errcodeStatusOffset

/-- `ETHFW_TRACE_ERRCODE_MOD`. -/
def errcodeMod (x : U32) : U32 := (x &&& errcodeModMask) >>> errcodeModOffset

/-- `ETHFW_TRACE_ERRCODE_LINE`. -/
def errcodeLine (x : U32) : U32 := (x &&& errcodeLineMask) >>> errcodeLineOffset

/-- `ETHFW_TRACE_ERRCODE_STATUS`. -/
def errcodeStatus (x : U32) : U32 := (x &&& errcodeStatusMask) >>> errcodeStatusOffset

/-- `EthFwTrace_TraceLevel`. -/
inductive TraceLevel where
  | none | error | warn | info | debug | verbose

/-- Value of a level. -/
def TraceLevel.value : TraceLevel → ℕ
  | .none => 0
  | .error => 1
  | .warn => 2
  | .info => 3
  | .debug => 4
  | .verbose => 5

/-- `EthFwTrace_Obj`: which of the functions are set. -/
structure TraceObj where
  /-- Print function. -/
  print : Bool
  /-- Timestamp function. -/
  tsFunc : Bool
  /-- Extended trace callback. -/
  extTraceFunc : Bool

/-- Arguments of `EthFwTrace_trace`. -/
structure TraceArgs where
  /-- Level enabled at runtime. -/
  globalLevel : TraceLevel
  /-- Level of the trace. -/
  level : TraceLevel
  /-- Module id. -/
  mod : U32
  /-- Line number. -/
  line : U32
  /-- Status reported. -/
  status : U32
  /-- What `vsnprintf` makes of the format and its arguments. -/
  text : List U8

/-- Text in the print buffer, and the room `n` that is left to write to. -/
structure PrintBuf where
  /-- The text. -/
  text : List U8
  /-- Room for characters and terminator; zero once something did not fit. -/
  room : ℕ
  /-- Text and room lie in the buffer, which has place for a terminator. -/
  fits : text.length + max room 1 ≤ printBufLen

/-- The buffer before the first write. -/
def PrintBuf.empty : PrintBuf := ⟨[],printBufLen,by decide⟩

/-- A formatted write behind the text, and the update of the room. -/
def PrintBuf.append (b : PrintBuf) (t : List U8) : PrintBuf where
  text := b.text ++ snprintf b.room t
  room := if 0 < t.length ∧ t.length < b.room then b.room - t.length else 0
  fits := by
    have hfits := b.fits
    unfold snprintf
    rw [List.length_append,List.length_take]
    split_ifs with h
    · omega
    · omega

/-- Decimal digits, as `%u` writes them. -/
def decimal (n : ℕ) : List U8 := (Nat.toDigits 10 n).map fun c => BitVec.ofNat 8 c.toNat

/-- A number as `%d` writes it. -/
def signedDecimal (n : Int) : List U8 :=
  if n < 0 then 0x2D :: decimal n.natAbs else decimal n.natAbs

/-- The text `"%6u.%06u: "` of seconds and microseconds. -/
def timestampText (tsUsecs : BitVec 64) : List U8 :=
  (decimal ((tsUsecs / 1000000).setWidth 32).toNat).leftpad 6 0x20 ++ [0x2E] ++
    (decimal ((tsUsecs % 1000000).setWidth 32).toNat).leftpad 6 0x30 ++ [0x3A,0x20]

/-- The end of a trace: the status, unless it is success, and the line's
terminator. -/
def endText (status : U32) : List U8 :=
  if status ≠ 0 then [0x3A,0x20] ++ signedDecimal status.toInt ++ traceLineTerm
  else traceLineTerm

/-- What `EthFwTrace_trace` hands out. -/
structure Traced where
  /-- Error code passed to the extended trace callback. -/
  errCode : Option U32
  /-- Text passed to the print function. -/
  printed : Option (List U8)

/-- `EthFwTrace_trace`, in a build with the given format; `ts` is what the
timestamp function returns. -/
def trace (traceFormat : ℕ) (obj : TraceObj) (ts : BitVec 64) (a : TraceArgs) : Traced :=
  if a.level.value ≤ a.globalLevel.value then
    { errCode :=
        if a.status ≠ 0 ∧ obj.extTraceFunc = true then
          some (errcode a.mod a.line (((-1 * a.status).setWidth 8).setWidth 32))
        else none
      printed :=
        if obj.print then
          let buf := PrintBuf.empty
          let buf :=
            if traceFormatDfltTs ≤ traceFormat then
              buf.append (timestampText (if obj.tsFunc then ts else 0))
            else buf
          let buf := buf.append a.text
          some (buf.append (endText a.status)).text
        else none }
  else ⟨none,none⟩

/-- Where a trace macro stands: the module id of the file, and `__LINE__`. -/
structure Site where
  /-- `ETHFWTRACE_MOD_ID`. -/
  mod : U32
  /-- Line number. -/
  line : U32
  /-- Module ids have twelve bits. -/
  mod_lt : mod.toNat < 2 ^ 12

/-- A trace of a site with a status, at a level that is enabled and with an
extended trace callback. -/
structure TracedFrom (site : Site) (status : Int) (obj : TraceObj) (a : TraceArgs) : Prop where
  /-- Module of the site. -/
  mod : a.mod = site.mod
  /-- Line of the site. -/
  line : a.line = site.line
  /-- The status. -/
  status : a.status = BitVec.ofInt 32 status
  /-- The level is enabled. -/
  enabled : a.level.value ≤ a.globalLevel.value
  /-- The callback is set. -/
  callback : obj.extTraceFunc = true

/-- A status that has a place in the error code. -/
def HasCode (status : Int) : Prop := -255 ≤ status ∧ status ≤ -1

/-- The extraction macros read the site and the negated status. -/
structure Decodes (site : Site) (status : Int) (code : U32) : Prop where
  /-- Module id. -/
  mod : errcodeMod code = site.mod
  /-- Line number. -/
  line : errcodeLine code = site.line
  /-- Negated status. -/
  status : ((errcodeStatus code).toNat : Int) = -status

/-- Every trace of a site passes a code to the callback, and it decodes. -/
def SiteDecodes (traceFormat : ℕ) (site : Site) : Prop :=
  ∀ status, HasCode status → ∀ obj ts a, TracedFrom site status obj a →
    ∃ code, (trace traceFormat obj ts a).errCode = some code ∧ Decodes site status code

/-- Sites that pass one code for the same status are the same. -/
def CodesApart (traceFormat : ℕ) (sites : Set Site) : Prop :=
  ∀ site ∈ sites, ∀ site' ∈ sites, ∀ status, HasCode status →
    ∀ obj ts a obj' ts' a', TracedFrom site status obj a → TracedFrom site' status obj' a' →
      (trace traceFormat obj ts a).errCode = (trace traceFormat obj' ts' a').errCode →
        site = site'

/-- What is printed is shorter than the print buffer. -/
theorem length_printed_lt {traceFormat : ℕ} {obj : TraceObj} {ts : BitVec 64} {a : TraceArgs}
    {text : List U8} (h : (trace traceFormat obj ts a).printed = some text) :
    text.length < printBufLen := by
  have hbuf : ∀ b : PrintBuf, some b.text = some text → text.length < printBufLen := by
    intro b hb
    have hfits := b.fits
    rw [Option.some.inj hb] at hfits
    omega
  unfold trace at h
  by_cases hlevel : a.level.value ≤ a.globalLevel.value
  · rw [if_pos hlevel] at h
    cases hprint : obj.print with
    | true =>
      simp only [hprint,if_true] at h
      exact hbuf _ h
    | false =>
      simp only [hprint] at h
      cases h
  · rw [if_neg hlevel] at h
    cases h

section Codes

/-- Field of the module id. -/
def modField : Field 32 := ⟨errcodeModOffset,12,by decide⟩

/-- Field of the line number. -/
def lineField : Field 32 := ⟨errcodeLineOffset,12,by decide⟩

/-- Field of the status. -/
def statusField : Field 32 := ⟨errcodeStatusOffset,8,by decide⟩

theorem errcodeMod_eq (x : U32) : errcodeMod x = modField.get x := rfl

theorem errcodeLine_eq (x : U32) : errcodeLine x = lineField.get x := rfl

theorem errcodeStatus_eq (x : U32) : errcodeStatus x = statusField.get x := rfl

variable {mod line err : U32}

/-- The module is read with what the line reaches into it. -/
theorem errcodeMod_errcode (herr : err.toNat < 2 ^ 8) :
    errcodeMod (errcode mod line err) = low 12 mod ||| low 12 (line >>> 12) := by
  have hmod : modField.get (mod <<< errcodeModOffset) = low 12 mod :=
    get_shiftLeft_self modField mod
  have hline : modField.get (line <<< errcodeLineOffset) = low 12 (line >>> 12) :=
    get_shiftLeft_of_le (by decide)
  have hstatus : modField.get (err <<< errcodeStatusOffset) = low 12 (err >>> 20) :=
    get_shiftLeft_of_le (by decide)
  have hzero : err >>> 20 = 0 := shiftRight_eq_zero (by omega)
  rw [errcodeMod_eq]
  unfold errcode
  rw [get_or,get_or,hmod,hline,hstatus,hzero]
  exact BitVec.or_zero

/-- The line is read modulo the size of its field. -/
theorem errcodeLine_errcode (herr : err.toNat < 2 ^ 8) :
    errcodeLine (errcode mod line err) = low 12 line := by
  have hmod : lineField.get (mod <<< errcodeModOffset) = 0 := get_shiftLeft_of_ge (by decide)
  have hline : lineField.get (line <<< errcodeLineOffset) = low 12 line :=
    get_shiftLeft_self lineField line
  have hstatus : lineField.get (err <<< errcodeStatusOffset) = low 12 (err >>> 8) :=
    get_shiftLeft_of_le (by decide)
  have hzero : err >>> 8 = 0 := shiftRight_eq_zero herr
  rw [errcodeLine_eq]
  unfold errcode
  rw [get_or,get_or,hmod,hline,hstatus,hzero]
  exact BitVec.or_zero.trans BitVec.zero_or

/-- The status is read as it was. -/
theorem errcodeStatus_errcode (herr : err.toNat < 2 ^ 8) :
    errcodeStatus (errcode mod line err) = err := by
  have hmod : statusField.get (mod <<< errcodeModOffset) = 0 := get_shiftLeft_of_ge (by decide)
  have hline : statusField.get (line <<< errcodeLineOffset) = 0 :=
    get_shiftLeft_of_ge (by decide)
  have hstatus : statusField.get (err <<< errcodeStatusOffset) = low 8 err :=
    get_shiftLeft_self statusField err
  rw [errcodeStatus_eq]
  unfold errcode
  rw [get_or,get_or,hmod,hline,hstatus,low_eq_self_iff.mpr herr]
  exact BitVec.zero_or

/-- The fields make up the code. -/
theorem errcode_fields (x : U32) :
    errcode (errcodeMod x) (errcodeLine x) (errcodeStatus x) = x := by
  have hmod : errcodeMod x <<< errcodeModOffset = x &&& modField.mask := shiftLeft_get modField x
  have hline : errcodeLine x <<< errcodeLineOffset = x &&& lineField.mask :=
    shiftLeft_get lineField x
  have hstatus : errcodeStatus x <<< errcodeStatusOffset = x &&& statusField.mask :=
    shiftLeft_get statusField x
  have hmasks : modField.mask ||| lineField.mask ||| statusField.mask = BitVec.allOnes 32 := by
    decide
  unfold errcode
  rw [hmod,hline,hstatus,← BitVec.and_or_distrib_left,← BitVec.and_or_distrib_left,hmasks]
  exact BitVec.and_allOnes

/-- Codes are shared exactly where the lines agree modulo the size of their
field, and the modules with what the lines reach into them. -/
theorem errcode_eq_iff {mod' line' err' : U32} (herr : err.toNat < 2 ^ 8)
    (herr' : err'.toNat < 2 ^ 8) :
    errcode mod line err = errcode mod' line' err' ↔
      low 12 mod ||| low 12 (line >>> 12) = low 12 mod' ||| low 12 (line' >>> 12) ∧
        low 12 line = low 12 line' ∧ err = err' := by
  constructor
  · intro h
    have hmod := congrArg errcodeMod h
    have hline := congrArg errcodeLine h
    have hstatus := congrArg errcodeStatus h
    rw [errcodeMod_errcode herr,errcodeMod_errcode herr'] at hmod
    rw [errcodeLine_errcode herr,errcodeLine_errcode herr'] at hline
    rw [errcodeStatus_errcode herr,errcodeStatus_errcode herr'] at hstatus
    exact ⟨hmod,hline,hstatus⟩
  · rintro ⟨hmod,hline,hstatus⟩
    rw [← errcode_fields (errcode mod line err),← errcode_fields (errcode mod' line' err'),
      errcodeMod_errcode herr,errcodeMod_errcode herr',errcodeLine_errcode herr,
      errcodeLine_errcode herr',errcodeStatus_errcode herr,errcodeStatus_errcode herr',
      hmod,hline,hstatus]

end Codes

section Sites

variable {traceFormat : ℕ} {site site' : Site} {status : Int} {obj : TraceObj}
  {ts : BitVec 64} {a : TraceArgs}

/-- The byte that stands for a status is its negation. -/
theorem toNat_statusByte (h : HasCode status) :
    ((((-1 * BitVec.ofInt 32 status).setWidth 8).setWidth 32 : U32).toNat : Int) = -status := by
  obtain ⟨hlow,hhigh⟩ := h
  have hneg : -1 * BitVec.ofInt 32 status = BitVec.ofNat 32 (-status).toNat := by
    rw [neg_one_mul,← BitVec.ofInt_neg,← BitVec.ofInt_natCast]
    congr 1
    omega
  rw [hneg,BitVec.toNat_setWidth,BitVec.toNat_setWidth,BitVec.toNat_ofNat]
  omega

/-- A trace passes the code of its site. -/
theorem errCode_of_tracedFrom (hcode : HasCode status) (h : TracedFrom site status obj a) :
    (trace traceFormat obj ts a).errCode =
      some (errcode site.mod site.line
        (((-1 * BitVec.ofInt 32 status).setWidth 8).setWidth 32)) := by
  have hne : BitVec.ofInt 32 status ≠ 0 := by
    obtain ⟨hlow,hhigh⟩ := hcode
    intro hzero
    have hnat := congrArg BitVec.toNat hzero
    rw [BitVec.toNat_ofInt] at hnat
    change _ = 0 at hnat
    omega
  unfold trace
  rw [if_pos h.enabled]
  dsimp only
  rw [h.mod,h.line,h.status,if_pos ⟨hne,h.callback⟩]

/-- Some trace of every site and status has a callback and an enabled level. -/
theorem exists_tracedFrom (site : Site) (status : Int) :
    ∃ obj a, TracedFrom site status obj a :=
  ⟨⟨true,true,true⟩,⟨.error,.error,site.mod,site.line,BitVec.ofInt 32 status,[]⟩,
    ⟨rfl,rfl,rfl,le_rfl,rfl⟩⟩

/-- The code of a site decodes exactly when the line fits its field. -/
theorem decodes_iff (hcode : HasCode status) :
    Decodes site status (errcode site.mod site.line
        (((-1 * BitVec.ofInt 32 status).setWidth 8).setWidth 32)) ↔
      site.line.toNat < 4096 := by
  have hbyte := toNat_statusByte hcode
  have herr : (((-1 * BitVec.ofInt 32 status).setWidth 8).setWidth 32 : U32).toNat < 2 ^ 8 := by
    have hlow := hcode.1
    omega
  constructor
  · intro h
    have hline := h.line
    rw [errcodeLine_errcode herr] at hline
    exact low_eq_self_iff.mp hline
  · intro hline
    have hmod : low 12 site.mod = site.mod := low_eq_self_iff.mpr site.mod_lt
    have hover : site.line >>> 12 = 0 := shiftRight_eq_zero hline
    constructor
    · rw [errcodeMod_errcode herr,hmod,hover]
      exact BitVec.or_zero
    · rw [errcodeLine_errcode herr]
      exact low_eq_self_iff.mpr hline
    · rw [errcodeStatus_errcode herr]
      exact hbyte

/-- The traces of a site decode exactly when its line fits the field. -/
theorem siteDecodes_iff : SiteDecodes traceFormat site ↔ site.line.toNat < 4096 := by
  constructor
  · intro h
    have hcode : HasCode (-1) := ⟨by omega,by omega⟩
    obtain ⟨obj,a,hfrom⟩ := exists_tracedFrom site (-1)
    obtain ⟨code,hpassed,hdecodes⟩ := h (-1) hcode obj 0 a hfrom
    rw [errCode_of_tracedFrom hcode hfrom] at hpassed
    rw [← Option.some.inj hpassed] at hdecodes
    exact (decodes_iff hcode).mp hdecodes
  · intro hline status hcode obj ts a hfrom
    exact ⟨_,errCode_of_tracedFrom hcode hfrom,(decodes_iff hcode).mpr hline⟩

/-- A code leads to one site only. -/
theorem Decodes.unique {code : U32} (h : Decodes site status code)
    (h' : Decodes site' status code) : site = site' := by
  have hmod : site.mod = site'.mod := h.mod.symm.trans h'.mod
  have hline : site.line = site'.line := h.line.symm.trans h'.line
  cases site
  cases site'
  cases hmod
  cases hline
  rfl

/-- Sites whose traces decode share no code. -/
theorem codesApart_of_siteDecodes {sites : Set Site}
    (h : ∀ site ∈ sites, SiteDecodes traceFormat site) : CodesApart traceFormat sites := by
  intro site hsite site' hsite' status hcode obj ts a obj' ts' a' hfrom hfrom' heq
  obtain ⟨code,hpassed,hdecodes⟩ := h site hsite status hcode obj ts a hfrom
  obtain ⟨code',hpassed',hdecodes'⟩ := h site' hsite' status hcode obj' ts' a' hfrom'
  rw [hpassed,hpassed'] at heq
  rw [← Option.some.inj heq] at hdecodes'
  exact hdecodes.unique hdecodes'

end Sites

/-- The error codes of a program's trace sites decode, and no two sites share
one, exactly when every trace stands on a line below 4096. -/
theorem error_codes_decode_iff (traceFormat : ℕ) (sites : Set Site) :
    (∀ site ∈ sites, SiteDecodes traceFormat site) ∧ CodesApart traceFormat sites ↔
      ∀ site ∈ sites, site.line.toNat < 4096 := by
  constructor
  · rintro ⟨hdecodes,-⟩ site hsite
    exact siteDecodes_iff.mp (hdecodes site hsite)
  · intro h
    have hdecodes : ∀ site ∈ sites, SiteDecodes traceFormat site :=
      fun site hsite => siteDecodes_iff.mpr (h site hsite)
    exact ⟨hdecodes,codesApart_of_siteDecodes hdecodes⟩

/-- The last trace of a file of more than 4400 lines decodes to a line of
another module. -/
theorem last_trace_decodes_to_other_module : ¬ SiteDecodes 0 ⟨0x106,4403,by decide⟩ := by
  intro h
  obtain ⟨code,hpassed,hdecodes⟩ := h (-1)
    ⟨by decide,by decide⟩ ⟨true,true,true⟩ 0
    ⟨.info,.error,0x106,4403,BitVec.ofInt 32 (-1),[]⟩ ⟨rfl,rfl,rfl,by decide,rfl⟩
  have hcode : code = errcode 0x107 307 1 := (Option.some.inj hpassed).symm
  have hmod := hdecodes.mod
  rw [hcode] at hmod
  revert hmod
  decide

end EthernetFirmware.TraceErrorCodes
