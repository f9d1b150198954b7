import EthernetFirmware.FilledTables
import EthernetFirmware.Lockstep
import Mathlib.Data.List.TakeWhile

/-!
# Command line of the console

The console keeps its commands in three tables of fixed size. A line of input
is cut into words and the first word names the command: a system command, or
within an application one of its sub-commands, or else an application. The
handler of an application may register sub-commands and prompt for further
lines itself; they are dropped when it returns.

`Console` is the purpose of this: lists of commands and one session of an
application at most. The tables answer every event as it does.
-/

namespace EthernetFirmware.ConsoleCommands

open Function GuardedRuns SlotTables FilledTables

abbrev Text := List Char

variable {H : Type*} {n : ℕ}

section Words

/-- What separates the words of a line. -/
def delimitter : Text := [' ','\r','\n']

def isDelimitter (c : Char) : Bool := delimitter.contains c

/-- The first word of a text and what follows its delimiter. -/
def strtok (s : Text) : Option (Text × Text) :=
  match s.dropWhile isDelimitter with
  | [] => none
  | c :: s => some ((c :: s).takeWhile fun c => !isDelimitter c,
      ((c :: s).dropWhile fun c => !isDelimitter c).tail)

/-- The loop over the words, for as many arguments as there is room. -/
def tokenize : ℕ → Text → List Text
  | 0,_ => []
  | n + 1,s =>
    match strtok s with
    | none => []
    | some (word,rest) => word :: tokenize n rest

/-- Words of a text: what is between delimiters and not empty. -/
def words (s : Text) : List Text := (s.splitOnP isDelimitter).filter fun w => !w.isEmpty

theorem words_append_cons (w s : Text) {c : Char} (hc : isDelimitter c = true) :
    words (w ++ c :: s) = words w ++ words s := by
  rw [words,List.splitOnP_append_cons _ _ hc,List.filter_append]
  rfl

theorem words_dropWhile (s : Text) : words (s.dropWhile isDelimitter) = words s := by
  induction s with
  | nil => rfl
  | cons c s ih =>
    by_cases hc : isDelimitter c = true
    · rw [List.dropWhile_cons_of_pos hc,ih]
      exact (words_append_cons [] s hc).symm
    · rw [List.dropWhile_cons_of_neg hc]

/-- A text without delimiters is one word. -/
theorem words_of_word {w : Text} (h : ∀ c ∈ w, isDelimitter c = false) (hne : w ≠ []) :
    words w = [w] := by
  rw [words,List.splitOnP_eq_singleton h]
  simp [hne]

/-- A text that starts with a word is this word and the words after its
delimiter. -/
theorem words_of_takeWhile (s : Text) (hne : (s.takeWhile fun c => !isDelimitter c) ≠ []) :
    words s = (s.takeWhile fun c => !isDelimitter c) ::
      words (s.dropWhile fun c => !isDelimitter c).tail := by
  have hword : ∀ d ∈ s.takeWhile fun c => !isDelimitter c, isDelimitter d = false :=
    fun d hd => by simpa using List.mem_takeWhile_imp hd
  have hsplit := List.takeWhile_append_dropWhile (p := fun c => !isDelimitter c) (l := s)
  cases hrest : s.dropWhile fun c => !isDelimitter c with
  | nil =>
    rw [hrest,List.append_nil] at hsplit
    rw [hsplit] at hword hne ⊢
    exact words_of_word hword hne
  | cons d rest =>
    have hd : isDelimitter d = true := by
      have hhead := List.head_dropWhile_not (p := fun c => !isDelimitter c) (l := s)
        (by simp [hrest])
      simpa [hrest] using hhead
    conv_lhs => rw [← hsplit,hrest]
    rw [words_append_cons _ _ hd,words_of_word hword hne]
    rfl

/-- The words of a text are its first word and those of the rest. -/
theorem words_eq_strtok (s : Text) :
    words s = match strtok s with
      | none => []
      | some (word,rest) => word :: words rest := by
  rw [← words_dropWhile,strtok]
  cases hs : s.dropWhile isDelimitter with
  | nil => rfl
  | cons c s' =>
    have hc : isDelimitter c = false := by
      have hhead := List.head_dropWhile_not (p := isDelimitter) (l := s) (by simp [hs])
      simpa [hs] using hhead
    apply words_of_takeWhile
    rw [List.takeWhile_cons_of_pos (by simp [hc])]
    exact List.cons_ne_nil _ _

/-- The loop finds the words in order, up to the number of arguments. -/
theorem tokenize_eq (n : ℕ) (s : Text) : tokenize n s = (words s).take n := by
  induction n generalizing s with
  | zero => rfl
  | succ n ih =>
    rw [tokenize,words_eq_strtok]
    cases strtok s with
    | none => rfl
    | some p => exact congrArg (List.cons p.1) (ih p.2)

end Words

/-- Entry of a command table. -/
structure CmdEntry (H : Type*) where
  /-- Name. -/
  cmd : Option Text
  /-- Line of help. -/
  desc : Option Text
  /-- Handler; an entry without one is free. -/
  cmdHandler : Option H

namespace CmdEntry

/-- Entry that has never been registered. -/
def unused : CmdEntry H := ⟨none,none,none⟩

def taken (e : CmdEntry H) : Bool := e.cmdHandler.isSome

def named (e : CmdEntry H) : Bool := e.cmd.isSome

def called (name : Text) (e : CmdEntry H) : Bool := decide (e.cmd = some name)

end CmdEntry

abbrev maxSystemCmds : ℕ := 32
abbrev maxAppCmds : ℕ := 64
abbrev maxAppSubCmds : ℕ := 32
abbrev maxArgs : ℕ := 32

/-- Size of the buffer of `appCliPrintf`. -/
abbrev printfSize : ℕ := 1024

/-- Object of the console. -/
structure AppCli (H : Type*) where
  /-- Name in the prompt. -/
  cliPromptName : Text
  /-- Commands that can always be given. -/
  sysCmds : Fin maxSystemCmds → CmdEntry H
  /-- Applications. -/
  appCmds : Fin maxAppCmds → CmdEntry H
  /-- Sub-commands of the application under way. -/
  appSubCmds : Fin maxAppSubCmds → CmdEntry H
  /-- Entry of the application under way. -/
  curAppCmd : Option (Fin maxAppCmds)
  /-- An application is under way. -/
  isInsideAppCmd : Bool

/-- A handler that has been called and has not returned, by the place in
`appCliExecuteCmd` that called it. -/
inductive Frame where
  | system
  | app
  | sub
  deriving DecidableEq

/-- What a prompt leads to. -/
inductive Reply (H : Type*) where
  /-- It is back, with its status, the exit flag and what it printed. -/
  | ended (status : ℤ) (isExit : Bool) (text : List Text)
  /-- It calls a handler with the words of the line. -/
  | call (cmdHandler : Option H) (argv : List Text)

/-- What happens at the console. -/
inductive Event (H : Type*) where
  | registerSystemCmd (e : CmdEntry H)
  | registerAppCmd (e : CmdEntry H)
  | registerAppSubCmd (e : CmdEntry H)
  /-- Someone prompts for a line. -/
  | showPrompt (line : Text)
  /-- The help command runs. -/
  | help
  /-- The handler called last returns. -/
  | handlerReturns (status : ℤ)

/-- Answer to an event. -/
inductive Answer (H : Type*) where
  /-- Status of a registration. -/
  | status (s : ℤ)
  /-- Prompt shown, and what came of the line. -/
  | prompt (text : Text) (reply : Reply H)
  /-- What the help command printed. -/
  | help (text : List Text)
  /-- The prompt that called a handler is back. -/
  | back (reply : Reply H)
  /-- No handler was under way. -/
  | idle

/-- What reaches the device of a formatted text. -/
def appCliPrintf (s : Text) : Text := s.take (printfSize - 1)

/-- Prompt within an application, or without one. -/
def promptText (promptName : Text) : Option Text → Text
  | some name => appCliPrintf (" ".toList ++ promptName ++ "/".toList ++ name ++ " $ ".toList)
  | none => appCliPrintf (" ".toList ++ promptName ++ "/ $ ".toList)

/-- Line of help about a command. -/
def commandText (e : CmdEntry H) : Text :=
  appCliPrintf ("  ".toList ++ (e.cmd.getD []).rightpad 32 ' ' ++ " : ".toList ++
    (e.desc.getD "No description provided !!!".toList) ++ "\n".toList)

/-- What the help command prints about the listed commands. -/
def helpText (system : List Text) (cur : Option Text) (others : List Text) : List Text :=
  ["\n".toList," Supported system commands,\n".toList] ++ system ++
    [appCliPrintf ("  ".toList ++ "exit".toList.rightpad 32 ' ' ++
      " : Exit current application\n".toList),"\n".toList] ++
    (match cur with
      | some name =>
        appCliPrintf (" Supported sub-commands for [".toList ++ name ++ "],\n".toList)
      | none => " Supported application commands,\n".toList) :: others ++ ["\n".toList]

/-- A line whose first word names nothing. -/
def notExecuted (argv0 : Text) : Reply H :=
  if argv0 = "exit".toList then .ended 0 true []
  else .ended 0 false [appCliPrintf (" Unknown command: ".toList ++ argv0 ++ "\n".toList)]

section Tables

/-- The search for a free entry, shared by the registrations. -/
def registerCmd (cmds : Fin n → CmdEntry H) (e : CmdEntry H) : ℤ × (Fin n → CmdEntry H) :=
  match firstSlot (fun e => !e.taken) cmds with
  | some i => (0,update cmds i e)
  | none => (-1,cmds)

def appCliRegisterSystemCmd (obj : AppCli H) (e : CmdEntry H) : ℤ × AppCli H :=
  let r := registerCmd obj.sysCmds e
  (r.1,{ obj with sysCmds := r.2 })

def appCliRegisterAppCmd (obj : AppCli H) (e : CmdEntry H) : ℤ × AppCli H :=
  let r := registerCmd obj.appCmds e
  (r.1,{ obj with appCmds := r.2 })

/-- Registers within an application only, and reports failure always. -/
def appCliRegisterAppSubCmd (obj : AppCli H) (e : CmdEntry H) : ℤ × AppCli H :=
  if obj.isInsideAppCmd then
    (-1,{ obj with appSubCmds := (registerCmd obj.appSubCmds e).2 })
  else (-1,obj)

def appCliUnRegisterAllAppSubCmds (obj : AppCli H) : ℤ × AppCli H :=
  if obj.isInsideAppCmd then (0,{ obj with appSubCmds := fun _ => .unused })
  else (-1,obj)

/-- Empty tables but for the help command. -/
def appCliInit (promptName : Text) (help : H) : AppCli H :=
  (appCliRegisterSystemCmd
    ⟨promptName,fun _ => .unused,fun _ => .unused,fun _ => .unused,none,false⟩
    ⟨some "help".toList,some "Show this help".toList,some help⟩).2

def appCliShowCommands (cmds : Fin n → CmdEntry H) : List Text :=
  ((List.ofFn cmds).filter fun e => e.taken && e.named).map commandText

def appCliSearchCmd (cmds : Fin n → CmdEntry H) (cmd : Text) : Option (Fin n) :=
  firstSlot (fun e => e.taken && e.called cmd) cmds

/-- Name of the application under way. -/
def curAppName (obj : AppCli H) : Option Text :=
  obj.curAppCmd.bind fun i => (obj.appCmds i).cmd

def appCliSystemCmdHelp (obj : AppCli H) : List Text :=
  match obj.isInsideAppCmd,curAppName obj with
  | true,some name =>
    helpText (appCliShowCommands obj.sysCmds) (some name) (appCliShowCommands obj.appSubCmds)
  | _,_ => helpText (appCliShowCommands obj.sysCmds) none (appCliShowCommands obj.appCmds)

/-- `appCliExecuteCmd` up to the call of a handler, with what is left to do
after the call. -/
def appCliExecuteCmd (obj : AppCli H) (argv0 : Text) (args : List Text) :
    Reply H × Option Frame × AppCli H :=
  match appCliSearchCmd obj.sysCmds argv0 with
  | some i => (.call (obj.sysCmds i).cmdHandler (argv0 :: args),some .system,obj)
  | none =>
    if obj.isInsideAppCmd = false then
      match appCliSearchCmd obj.appCmds argv0 with
      | some i => (.call (obj.appCmds i).cmdHandler (argv0 :: args),some .app,
          { obj with isInsideAppCmd := true, curAppCmd := some i })
      | none => (notExecuted argv0,none,obj)
    else
      match appCliSearchCmd obj.appSubCmds argv0 with
      | some i => (.call (obj.appSubCmds i).cmdHandler (argv0 :: args),some .sub,obj)
      | none => (notExecuted argv0,none,obj)

/-- What `appCliExecuteCmd` does after its handler is back. -/
def executedCmd (obj : AppCli H) : Frame → AppCli H
  | .app =>
    { (appCliUnRegisterAllAppSubCmds obj).2 with isInsideAppCmd := false, curAppCmd := none }
  | _ => obj

/-- `appCliShowPrompt` up to the call of a handler. -/
def appCliShowPrompt (obj : AppCli H) (line : Text) : Text × Reply H × Option Frame × AppCli H :=
  (promptText obj.cliPromptName (curAppName obj),
    if line.head? = some '#' then (.ended 0 false [],none,obj)
    else match tokenize maxArgs line with
      | [] => (.ended 0 false [],none,obj)
      | argv0 :: args => appCliExecuteCmd obj argv0 args)

/-- The console and the handlers under way, the one called last first. -/
structure State (H : Type*) where
  /-- Object of the console. -/
  obj : AppCli H
  /-- Calls that have not returned. -/
  frames : List Frame

/-- One event at the console. -/
def step (s : State H) : Event H → Answer H × State H
  | .registerSystemCmd e =>
    let r := appCliRegisterSystemCmd s.obj e
    (.status r.1,{ s with obj := r.2 })
  | .registerAppCmd e =>
    let r := appCliRegisterAppCmd s.obj e
    (.status r.1,{ s with obj := r.2 })
  | .registerAppSubCmd e =>
    let r := appCliRegisterAppSubCmd s.obj e
    (.status r.1,{ s with obj := r.2 })
  | .showPrompt line =>
    let r := appCliShowPrompt s.obj line
    (.prompt r.1 r.2.1,⟨r.2.2.2,r.2.2.1.toList ++ s.frames⟩)
  | .help => (.help (appCliSystemCmdHelp s.obj),s)
  | .handlerReturns status =>
    match s.frames with
    | [] => (.idle,s)
    | frame :: frames => (.back (.ended status false []),⟨executedCmd s.obj frame,frames⟩)

end Tables

section Lists

/-- A registered command. -/
structure Command (H : Type*) where
  /-- Name. -/
  cmd : Option Text
  /-- Line of help. -/
  desc : Option Text
  /-- Handler. -/
  cmdHandler : H

/-- The table entry of a command. -/
def Command.entry (c : Command H) : CmdEntry H := ⟨c.cmd,c.desc,some c.cmdHandler⟩

/-- The command an entry stands for. -/
def CmdEntry.command (e : CmdEntry H) : Option (Command H) :=
  e.cmdHandler.map fun h => ⟨e.cmd,e.desc,h⟩

/-- An application that is under way. -/
structure Session (H : Type*) where
  /-- Name it was called by. -/
  name : Text
  /-- Its sub-commands. -/
  subCmds : List (Command H)
  /-- Handlers that were called within it and have not returned. -/
  above : ℕ

/-- Purpose of the console. -/
structure Console (H : Type*) where
  /-- Name in the prompt. -/
  promptName : Text
  /-- System commands in the order of their registration. -/
  system : List (Command H)
  /-- Applications in the order of their registration. -/
  app : List (Command H)
  /-- The application under way. -/
  session : Option (Session H)
  /-- System commands that were called outside of it and have not returned. -/
  below : ℕ

/-- Commands after a registration, of which there is room for a number. -/
def register (room : ℕ) (cmds : List (Command H)) (e : CmdEntry H) : ℤ × List (Command H) :=
  if cmds.length < room then (0,cmds ++ e.command.toList) else (-1,cmds)

/-- The first command of a name. -/
def lookup (cmds : List (Command H)) (name : Text) : Option (Command H) :=
  cmds.find? fun c => decide (c.cmd = some name)

/-- Lines of help about the commands that have a name. -/
def showCommands (cmds : List (Command H)) : List Text :=
  (cmds.filter fun c => c.cmd.isSome).map fun c => commandText c.entry

namespace Console

/-- The help command is all there is. -/
def init (promptName : Text) (help : H) : Console H :=
  ⟨promptName,[⟨some "help".toList,some "Show this help".toList,help⟩],[],none,0⟩

/-- One more handler is under way. -/
def enter (c : Console H) : Console H :=
  match c.session with
  | some s => { c with session := some { s with above := s.above + 1 } }
  | none => { c with below := c.below + 1 }

/-- The handler called last returns. -/
def leave (c : Console H) : Option (Console H) :=
  match c.session,c.below with
  | some ⟨_,_,0⟩,_ => some { c with session := none }
  | some ⟨name,subCmds,above + 1⟩,_ => some { c with session := some ⟨name,subCmds,above⟩ }
  | none,below + 1 => some { c with below := below }
  | none,0 => none

/-- The command a name stands for at the moment, and the console while its
handler runs. -/
def resolve (c : Console H) (name : Text) : Option (Command H × Console H) :=
  match lookup c.system name,c.session with
  | some cmd,_ => some (cmd,c.enter)
  | none,none =>
    (lookup c.app name).map fun cmd => (cmd,{ c with session := some ⟨name,[],0⟩ })
  | none,some s => (lookup s.subCmds name).map fun cmd => (cmd,c.enter)

/-- Words that were entered run the command the first one stands for. -/
def execute (c : Console H) (argv0 : Text) (args : List Text) : Reply H × Console H :=
  match c.resolve argv0 with
  | some (cmd,c') => (.call (some cmd.cmdHandler) (argv0 :: args),c')
  | none => (notExecuted argv0,c)

/-- A line is a comment, or its words are a command. -/
def prompt (c : Console H) (line : Text) : Reply H × Console H :=
  if line.head? = some '#' then (.ended 0 false [],c)
  else match (words line).take maxArgs with
    | [] => (.ended 0 false [],c)
    | argv0 :: args => c.execute argv0 args

def help (c : Console H) : List Text :=
  match c.session with
  | some s => helpText (showCommands c.system) (some s.name) (showCommands s.subCmds)
  | none => helpText (showCommands c.system) none (showCommands c.app)

/-- Sub-commands belong to the session. -/
def registerSub (c : Console H) (e : CmdEntry H) : Console H :=
  { c with session := c.session.map fun s =>
      { s with subCmds := (register maxAppSubCmds s.subCmds e).2 } }

/-- One event. -/
def step (c : Console H) : Event H → Answer H × Console H
  | .registerSystemCmd e =>
    let r := register maxSystemCmds c.system e
    (.status r.1,{ c with system := r.2 })
  | .registerAppCmd e =>
    let r := register maxAppCmds c.app e
    (.status r.1,{ c with app := r.2 })
  | .registerAppSubCmd e => (.status (-1),c.registerSub e)
  | .showPrompt line =>
    let r := c.prompt line
    (.prompt (promptText c.promptName (c.session.map Session.name)) r.1,r.2)
  | .help => (.help c.help,c)
  | .handlerReturns status =>
    match c.leave with
    | some c' => (.back (.ended status false []),c')
    | none => (.idle,c)

end Console

/-- A table holds commands. -/
def Holds (t : Fin n → CmdEntry H) (cmds : List (Command H)) : Prop :=
  Fills CmdEntry.taken t (cmds.map Command.entry)

/-- The table of sub-commands, the current application and the calls under
way are those of the session. -/
def Runs (s : State H) (c : Console H) : Prop :=
  match c.session with
  | none => s.obj.isInsideAppCmd = false ∧ s.obj.curAppCmd = none ∧
      Holds s.obj.appSubCmds [] ∧ s.frames.length = c.below ∧ .app ∉ s.frames
  | some ss => s.obj.isInsideAppCmd = true ∧
      (∃ (i : Fin maxAppCmds) (h : i.val < c.app.length),
        s.obj.curAppCmd = some i ∧ c.app[i.val].cmd = some ss.name) ∧
      Holds s.obj.appSubCmds ss.subCmds ∧
      ∃ above below, s.frames = above ++ .app :: below ∧ above.length = ss.above ∧
        below.length = c.below ∧ .app ∉ above ∧ .app ∉ below

/-- The object and the calls under way stand for the console. -/
structure Shows (s : State H) (c : Console H) : Prop where
  /-- One name. -/
  promptName : s.obj.cliPromptName = c.promptName
  /-- System commands. -/
  system : Holds s.obj.sysCmds c.system
  /-- Applications. -/
  app : Holds s.obj.appCmds c.app
  /-- The session. -/
  runs : Runs s c

end Lists

section Refinement

variable {t : Fin n → CmdEntry H} {cmds : List (Command H)} {s : State H} {c : Console H}

theorem holds_unused : Holds (fun _ => CmdEntry.unused : Fin n → CmdEntry H) [] :=
  fills_nil fun _ => rfl

namespace Holds

/-- A table and a list take the same registrations. -/
theorem register (h : Holds t cmds) (e : CmdEntry H) :
    (registerCmd t e).1 = (ConsoleCommands.register n cmds e).1 ∧
      Holds (registerCmd t e).2 (ConsoleCommands.register n cmds e).2 := by
  rw [registerCmd,ConsoleCommands.register,h.firstFree]
  simp only [List.length_map]
  by_cases hl : cmds.length < n
  · rw [dif_pos hl,if_pos hl]
    refine ⟨rfl,?_⟩
    have hl' : (cmds.map Command.entry).length < n := by rwa [List.length_map]
    have hslot : (⟨cmds.length,hl⟩ : Fin n) = ⟨(cmds.map Command.entry).length,hl'⟩ :=
      Fin.ext (List.length_map _).symm
    dsimp only
    rw [hslot,Holds,List.map_append]
    obtain ⟨cmd,desc,cmdHandler⟩ := e
    cases cmdHandler with
    | none =>
      rw [CmdEntry.command,Option.map_none,Option.toList_none,List.map_nil,List.append_nil]
      exact h.put_free hl' rfl
    | some handler => exact h.put hl' rfl
  · rw [dif_neg hl,if_neg hl]
    exact ⟨rfl,h⟩

/-- A search that fails finds no command. -/
theorem search_none (h : Holds t cmds) {name : Text} (hs : appCliSearchCmd t name = none) :
    lookup cmds name = none := by
  have hfind := h.find_none hs
  rw [List.find?_map,Option.map_eq_none_iff] at hfind
  exact hfind

/-- A search that succeeds finds the entry of the first command. -/
theorem search_some (h : Holds t cmds) {name : Text} {i : Fin n}
    (hs : appCliSearchCmd t name = some i) :
    (∃ hi : i.val < cmds.length, cmds[i.val].cmd = some name) ∧
      ∃ cmd, lookup cmds name = some cmd ∧ (t i).cmdHandler = some cmd.cmdHandler := by
  obtain ⟨hi,hfind⟩ := h.find_some hs
  have hcalled : CmdEntry.called name (t i) = true := List.find?_some hfind
  have hname : (t i).cmd = some name := of_decide_eq_true hcalled
  have hget := h.get i hi
  rw [List.getElem_map] at hget
  rw [hget] at hname
  rw [List.length_map] at hi
  refine ⟨⟨hi,hname⟩,?_⟩
  rw [List.find?_map,Option.map_eq_some_iff] at hfind
  obtain ⟨cmd,hcmd,hentry⟩ := hfind
  exact ⟨cmd,hcmd,by rw [← hentry]; rfl⟩

/-- The help about a table lists its commands. -/
theorem show_eq (h : Holds t cmds) : appCliShowCommands t = showCommands cmds := by
  rw [appCliShowCommands,h.filter_eq,List.filter_map,List.map_map,showCommands]
  rfl

end Holds

/-- A registration keeps the commands there are. -/
theorem register_append (room : ℕ) (cmds : List (Command H)) (e : CmdEntry H) :
    ∃ rest, (register room cmds e).2 = cmds ++ rest := by
  rw [register]
  split
  · exact ⟨_,rfl⟩
  · exact ⟨[],(List.append_nil _).symm⟩

namespace Shows

/-- The name in the prompt is that of the session. -/
theorem curAppName_eq (h : Shows s c) : curAppName s.obj = c.session.map Session.name := by
  have hruns := h.runs
  rw [Runs] at hruns
  cases hsession : c.session with
  | none =>
    rw [hsession] at hruns
    rw [curAppName,hruns.2.1]
    rfl
  | some ss =>
    rw [hsession] at hruns
    obtain ⟨-,⟨i,hi,hcur,hname⟩,-⟩ := hruns
    have hget := h.app.get i (by rwa [List.length_map])
    rw [List.getElem_map] at hget
    rw [curAppName,hcur,Option.bind_some,hget]
    exact hname

theorem isInsideAppCmd_eq (h : Shows s c) : s.obj.isInsideAppCmd = c.session.isSome := by
  have hruns := h.runs
  rw [Runs] at hruns
  cases hsession : c.session with
  | none =>
    rw [hsession] at hruns
    exact hruns.1
  | some ss =>
    rw [hsession] at hruns
    exact hruns.1

theorem appSubCmds (h : Shows s c) :
    Holds s.obj.appSubCmds (c.session.elim [] Session.subCmds) := by
  have hruns := h.runs
  rw [Runs] at hruns
  cases hsession : c.session with
  | none =>
    rw [hsession] at hruns
    exact hruns.2.2.1
  | some ss =>
    rw [hsession] at hruns
    exact hruns.2.2.1

theorem registerSystemCmd (h : Shows s c) (e : CmdEntry H) :
    Shows { s with obj := (appCliRegisterSystemCmd s.obj e).2 }
      { c with system := (register maxSystemCmds c.system e).2 } :=
  ⟨h.promptName,(h.system.register e).2,h.app,h.runs⟩

/-- The entry of the application under way stays in its slot. -/
theorem registerAppCmd (h : Shows s c) (e : CmdEntry H) :
    Shows { s with obj := (appCliRegisterAppCmd s.obj e).2 }
      { c with app := (register maxAppCmds c.app e).2 } := by
  refine ⟨h.promptName,h.system,(h.app.register e).2,?_⟩
  have hruns := h.runs
  obtain ⟨rest,happ⟩ := register_append maxAppCmds c.app e
  rw [Runs] at hruns ⊢
  dsimp only at hruns ⊢
  cases hsession : c.session with
  | none =>
    rw [hsession] at hruns
    exact hruns
  | some ss =>
    rw [hsession] at hruns
    obtain ⟨hinside,⟨i,hi,hcur,hname⟩,hrest⟩ := hruns
    refine ⟨hinside,⟨i,?_,hcur,?_⟩,hrest⟩
    · rw [happ,List.length_append]
      omega
    · simp only [happ]
      rw [List.getElem_append_left hi]
      exact hname

theorem registerAppSubCmd (h : Shows s c) (e : CmdEntry H) :
    Shows { s with obj := (appCliRegisterAppSubCmd s.obj e).2 } (c.registerSub e) := by
  have hruns := h.runs
  rw [Runs] at hruns
  rw [appCliRegisterAppSubCmd,Console.registerSub]
  cases hsession : c.session with
  | none =>
    rw [hsession] at hruns
    rw [if_neg (by rw [hruns.1]; exact Bool.false_ne_true)]
    exact ⟨h.promptName,h.system,h.app,hruns⟩
  | some ss =>
    rw [hsession] at hruns
    obtain ⟨hinside,hcur,hsub,hframes⟩ := hruns
    rw [if_pos hinside]
    exact ⟨h.promptName,h.system,h.app,hinside,hcur,(hsub.register e).2,hframes⟩

/-- A handler that is not an application is called. -/
theorem enter (h : Shows s c) {frame : Frame} (hframe : frame ≠ .app) :
    Shows { s with frames := frame :: s.frames } c.enter := by
  have hruns := h.runs
  rw [Runs] at hruns
  rw [Console.enter]
  cases hsession : c.session with
  | none =>
    rw [hsession] at hruns
    obtain ⟨hinside,hcur,hsub,hlen,hmem⟩ := hruns
    refine ⟨h.promptName,h.system,h.app,?_⟩
    rw [Runs]
    dsimp only
    refine ⟨hinside,hcur,hsub,congrArg (· + 1) hlen,?_⟩
    rw [List.mem_cons,not_or]
    exact ⟨hframe.symm,hmem⟩
  | some ss =>
    rw [hsession] at hruns
    obtain ⟨hinside,hcur,hsub,above,below,hframes,habove,hbelow,hnabove,hnbelow⟩ := hruns
    refine ⟨h.promptName,h.system,h.app,hinside,hcur,hsub,frame :: above,below,?_,
      congrArg (· + 1) habove,hbelow,?_,hnbelow⟩
    · exact congrArg (List.cons frame) hframes
    · rw [List.mem_cons,not_or]
      exact ⟨hframe.symm,hnabove⟩

/-- An application is called. -/
theorem open_session (h : Shows s c) (hsession : c.session = none) {i : Fin maxAppCmds}
    {name : Text} (hi : ∃ hi : i.val < c.app.length, c.app[i.val].cmd = some name) :
    Shows ⟨{ s.obj with isInsideAppCmd := true, curAppCmd := some i },.app :: s.frames⟩
      { c with session := some ⟨name,[],0⟩ } := by
  have hruns := h.runs
  rw [Runs,hsession] at hruns
  obtain ⟨-,-,hsub,hlen,hmem⟩ := hruns
  obtain ⟨hlt,hname⟩ := hi
  exact ⟨h.promptName,h.system,h.app,rfl,⟨i,hlt,rfl,hname⟩,hsub,[],s.frames,rfl,rfl,hlen,
    List.not_mem_nil,hmem⟩

/-- Outcome of a line that is the console's, with a state that shows it. -/
def Executes (s : State H) (r : Reply H × Option Frame × AppCli H)
    (q : Reply H × Console H) : Prop :=
  r.1 = q.1 ∧ Shows ⟨r.2.2,r.2.1.toList ++ s.frames⟩ q.2

/-- Outside of an application a name that is no system command is one. -/
theorem execute_app (h : Shows s c) {argv0 : Text} (args : List Text)
    (hsys : appCliSearchCmd s.obj.sysCmds argv0 = none) (hsession : c.session = none) :
    Executes s (appCliExecuteCmd s.obj argv0 args) (c.execute argv0 args) := by
  have hinside := h.isInsideAppCmd_eq
  rw [hsession,Option.isSome_none] at hinside
  unfold appCliExecuteCmd Console.execute Console.resolve
  rw [hsys,h.system.search_none hsys,if_pos hinside,hsession]
  cases happ : appCliSearchCmd s.obj.appCmds argv0 with
  | some i =>
    obtain ⟨hi,cmd,hlookup,hhandler⟩ := h.app.search_some happ
    rw [hlookup]
    exact ⟨congrArg (Reply.call · (argv0 :: args)) hhandler,h.open_session hsession hi⟩
  | none =>
    rw [h.app.search_none happ]
    exact ⟨rfl,h⟩

/-- Within an application it is a sub-command. -/
theorem execute_sub (h : Shows s c) {argv0 : Text} (args : List Text)
    (hsys : appCliSearchCmd s.obj.sysCmds argv0 = none) {ss : Session H}
    (hsession : c.session = some ss) :
    Executes s (appCliExecuteCmd s.obj argv0 args) (c.execute argv0 args) := by
  have hinside := h.isInsideAppCmd_eq
  have hsubs := h.appSubCmds
  rw [hsession,Option.isSome_some] at hinside
  rw [hsession,Option.elim_some] at hsubs
  unfold appCliExecuteCmd Console.execute Console.resolve
  rw [hsys,h.system.search_none hsys,if_neg (by rw [hinside]; decide),hsession]
  cases hsub : appCliSearchCmd s.obj.appSubCmds argv0 with
  | some i =>
    obtain ⟨-,cmd,hlookup,hhandler⟩ := hsubs.search_some hsub
    dsimp only
    rw [hlookup]
    exact ⟨congrArg (Reply.call · (argv0 :: args)) hhandler,h.enter (by decide)⟩
  | none =>
    dsimp only
    rw [hsubs.search_none hsub]
    exact ⟨rfl,h⟩

/-- The words of a line run the command of the console. -/
theorem execute (h : Shows s c) (argv0 : Text) (args : List Text) :
    Executes s (appCliExecuteCmd s.obj argv0 args) (c.execute argv0 args) := by
  cases hsys : appCliSearchCmd s.obj.sysCmds argv0 with
  | some i =>
    obtain ⟨-,cmd,hlookup,hhandler⟩ := h.system.search_some hsys
    unfold appCliExecuteCmd Console.execute Console.resolve
    rw [hsys,hlookup]
    exact ⟨congrArg (Reply.call · (argv0 :: args)) hhandler,h.enter (by decide)⟩
  | none =>
    cases hsession : c.session with
    | none => exact h.execute_app args hsys hsession
    | some ss => exact h.execute_sub args hsys hsession

/-- A line does what it does at the console. -/
theorem showPrompt (h : Shows s c) (line : Text) :
    (appCliShowPrompt s.obj line).1 = promptText c.promptName (c.session.map Session.name) ∧
      Executes s (appCliShowPrompt s.obj line).2 (c.prompt line) := by
  unfold appCliShowPrompt Console.prompt
  refine ⟨by rw [h.promptName,h.curAppName_eq],?_⟩
  dsimp only
  rw [tokenize_eq]
  by_cases hcomment : line.head? = some '#'
  · rw [if_pos hcomment,if_pos hcomment]
    exact ⟨rfl,h⟩
  · rw [if_neg hcomment,if_neg hcomment]
    cases (words line).take maxArgs with
    | nil => exact ⟨rfl,h⟩
    | cons argv0 args => exact h.execute argv0 args

/-- The help is about the commands of the console. -/
theorem help_eq (h : Shows s c) : appCliSystemCmdHelp s.obj = c.help := by
  have hsubs := h.appSubCmds
  rw [appCliSystemCmdHelp,Console.help,h.curAppName_eq,h.isInsideAppCmd_eq,
    Holds.show_eq h.system,Holds.show_eq h.app]
  cases hsession : c.session with
  | none => rfl
  | some ss =>
    rw [hsession,Option.elim_some] at hsubs
    rw [hsubs.show_eq]
    rfl

/-- With no handler under way there is none to return. -/
theorem leave_none (h : Shows s c) (hf : s.frames = []) : c.leave = none := by
  have hruns := h.runs
  rw [Runs,hf] at hruns
  cases hsession : c.session with
  | none =>
    rw [hsession] at hruns
    obtain ⟨-,-,-,hlen,-⟩ := hruns
    rw [Console.leave,hsession,← hlen]
    rfl
  | some ss =>
    rw [hsession] at hruns
    obtain ⟨-,-,-,above,below,hframes,-⟩ := hruns
    exact absurd hframes.symm (List.append_ne_nil_of_right_ne_nil _ (List.cons_ne_nil _ _))

/-- A handler that is not an application returns. -/
theorem executedCmd_of_ne (obj : AppCli H) {frame : Frame} (hframe : frame ≠ .app) :
    executedCmd obj frame = obj := by
  cases frame with
  | app => exact absurd rfl hframe
  | system => rfl
  | sub => rfl

/-- The handler called last returns, and the session ends with its
application. -/
theorem leave_some (h : Shows s c) {frame : Frame} {frames : List Frame}
    (hf : s.frames = frame :: frames) :
    ∃ c', c.leave = some c' ∧ Shows ⟨executedCmd s.obj frame,frames⟩ c' := by
  have hruns := h.runs
  rw [Runs,hf] at hruns
  cases hsession : c.session with
  | none =>
    rw [hsession] at hruns
    obtain ⟨hinside,hcur,hsub,hlen,hmem⟩ := hruns
    rw [List.mem_cons,not_or] at hmem
    refine ⟨{ c with below := frames.length },?_,?_⟩
    · rw [Console.leave,hsession,← hlen,List.length_cons]
    · rw [executedCmd_of_ne _ (Ne.symm hmem.1)]
      refine ⟨h.promptName,h.system,h.app,?_⟩
      rw [Runs]
      dsimp only
      rw [hsession]
      exact ⟨hinside,hcur,hsub,rfl,hmem.2⟩
  | some ss =>
    rw [hsession] at hruns
    obtain ⟨hinside,hcur,hsub,above,below,hframes,habove,hbelow,hnabove,hnbelow⟩ := hruns
    obtain ⟨name,subCmds,count⟩ := ss
    cases above with
    | nil =>
      -- the application itself: its sub-commands go with it
      obtain ⟨rfl,rfl⟩ := List.cons.inj hframes
      obtain rfl : 0 = count := habove
      refine ⟨{ c with session := none },?_,?_⟩
      · rw [Console.leave,hsession]
      · rw [executedCmd,appCliUnRegisterAllAppSubCmds,if_pos hinside]
        exact ⟨h.promptName,h.system,h.app,rfl,rfl,holds_unused,hbelow,hnbelow⟩
    | cons f above =>
      obtain ⟨rfl,rfl⟩ := List.cons.inj hframes
      obtain rfl : above.length + 1 = count := habove
      rw [List.mem_cons,not_or] at hnabove
      refine ⟨{ c with session := some ⟨name,subCmds,above.length⟩ },?_,?_⟩
      · rw [Console.leave,hsession]
      · rw [executedCmd_of_ne _ (Ne.symm hnabove.1)]
        exact ⟨h.promptName,h.system,h.app,hinside,hcur,hsub,above,below,rfl,rfl,hbelow,
          hnabove.2,hnbelow⟩

/-- Every event is answered alike and leaves what the console leaves. -/
theorem step (h : Shows s c) (e : Event H) :
    Shows (ConsoleCommands.step s e).2 (c.step e).2 ∧
      (ConsoleCommands.step s e).1 = (c.step e).1 := by
  cases e with
  | registerSystemCmd e =>
    exact ⟨h.registerSystemCmd e,congrArg Answer.status (Holds.register h.system e).1⟩
  | registerAppCmd e =>
    exact ⟨h.registerAppCmd e,congrArg Answer.status (Holds.register h.app e).1⟩
  | registerAppSubCmd e =>
    refine ⟨h.registerAppSubCmd e,congrArg Answer.status ?_⟩
    rw [appCliRegisterAppSubCmd]
    split <;> rfl
  | showPrompt line =>
    obtain ⟨htext,hreply,hshows⟩ := h.showPrompt line
    exact ⟨hshows,congrArg₂ Answer.prompt htext hreply⟩
  | help => exact ⟨h,congrArg Answer.help h.help_eq⟩
  | handlerReturns status =>
    rw [ConsoleCommands.step,Console.step]
    cases hf : s.frames with
    | nil =>
      rw [h.leave_none hf]
      exact ⟨h,rfl⟩
    | cons frame frames =>
      obtain ⟨c',hleave,hshows⟩ := h.leave_some hf
      rw [hleave]
      exact ⟨hshows,rfl⟩

end Shows

theorem shows_init (promptName : Text) (help : H) :
    Shows ⟨appCliInit promptName help,[]⟩ (Console.init promptName help) :=
  ⟨rfl,(Holds.register holds_unused _).2,holds_unused,rfl,rfl,holds_unused,rfl,
    List.not_mem_nil⟩

/-- However registrations, prompts and handlers that prompt again follow each
other, the tables of the console answer as its lists of commands do. -/
theorem console_log (promptName : Text) (help : H) (events : List (Event H)) :
    Lockstep.log step ⟨appCliInit promptName help,[]⟩ events =
      Lockstep.log Console.step (Console.init promptName help) events :=
  (Lockstep.agree_of_step (R := Shows) (s := (⟨appCliInit promptName help,[]⟩,_))
    (fun _ e h => h.step e) (shows_init promptName help) events).log_eq

end Refinement

end EthernetFirmware.ConsoleCommands
