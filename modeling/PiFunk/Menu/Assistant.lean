import PiFunk.Menu.Channels
import PiFunk.Menu.Selectors

/-!
# The assistant

`assistant` calls its twelve steps in a fixed order.  Eleven of them ask, assign and open files, and
`modselect` starts a modulator in each of its branches.
-/

namespace PiFunk.Menu

open FuelLoop

/-- What the program cannot decide: whether a modulator returns, and where the string constants
are. -/
structure Environment where
  returns : Modulation → Bool
  fmAddress : CInt
  amAddress : CInt
  onAddress : CInt
  offAddress : CInt
  callsignAddress : CInt

/-! ## The steps -/

/-- The name is read over the pointer variable, and then `"file.ft"` is written to and opened,
whatever was typed.  The name is taken to fit into the pointer, and the memory behind that to be
writable. -/
def fileselect : Program :=
  (ask Answer.text fun _ globals ↦ globals).andThen fun dialog ↦
    .done (dialog.emit [.opened fileFt])

/-- Both branches return before anything is done. -/
def sampleselect : Program := fun dialog ↦
  if dialog.globals.filebit ≠ 16 then .done dialog else .done dialog

/-- Nothing calls it, but it is what sets `mod`; the value declared is NULL. -/
def modulationselect (environment : Environment) : Program :=
  (ask Answer.int fun answer globals ↦
    { globals with freqmode := scanf answer globals.freqmode }).andThen fun dialog ↦
  if dialog.globals.freqmode = 1 then
    assign (fun globals ↦ { globals with mod := .text environment.fmAddress fm }) dialog
  else if dialog.globals.freqmode = 2 then
    assign (fun globals ↦ { globals with mod := .text environment.amAddress am }) dialog
  else if dialog.globals.freqmode = 3 then .halted .exit dialog
  else assign (fun globals ↦ { globals with mod := .text environment.fmAddress fm }) dialog

/-- `strcmp` of the C library: the difference of the first characters that differ. -/
def strcmp (first second : CString) : ℤ := go first.chars second.chars
where
  go : List Byte → List Byte → ℤ
    | [], [] => 0
    | [], other :: _ => -other.toNat
    | character :: _, [] => character.toNat
    | character :: rest, other :: others =>
      if character = other then go rest others else character.toNat - other.toNat

/-- The start of a modulator. -/
def start (environment : Environment) (modulation : Modulation) : Program := fun dialog ↦
  let started := dialog.emit [.started modulation dialog.globals.freq]
  if environment.returns modulation then .done started else .running started

def modselect (environment : Environment) : Program := fun dialog ↦
  match dialog.globals.mod.string? with
  | none => .halted .fault dialog
  | some mod =>
    if truth (strcmp mod fm) then start environment .modulationfm dialog
    else if truth (strcmp mod am) then start environment .modulationam dialog
    else start environment .modulationfm dialog

def callsignselect (environment : Environment) : Program :=
  (ask Answer.int fun answer globals ↦
    { globals with callnameselect := scanf answer globals.callnameselect }).andThen fun dialog ↦
  if dialog.globals.callnameselect = 1 then
    ask Answer.text (fun answer globals ↦
      { globals with callsign := (answer.map CharPtr.overwritten).getD globals.callsign }) dialog
  else assign (fun globals ↦
    { globals with callsign := .text environment.callsignAddress callsignText }) dialog

/-- The call of `gpsselect` within a dialog. -/
def gpsStatus (environment : Environment) : Program := fun dialog ↦
  (gpsselect ⟨environment.onAddress, on⟩ ⟨environment.offAddress, off⟩ dialog.globals).map id
    fun globals ↦ { dialog with globals }

def SAMPLES_PER_BUFFER : ℕ := 512

/-- The `return` inside the loop leaves it in its first iteration. -/
def volumeselect (globals : Globals) : Globals :=
  let first := { globals with n := 0 }
  if first.n < SAMPLES_PER_BUFFER then
    { first with
      volbuffer := Function.update first.volbuffer first.n
        (first.volbuffer first.n * first.volumeMultiplier) }
  else first

/-- The calls of `assistant`, in order. -/
def assistantCalls (environment : Environment) : List (Call × Program) :=
  [(.fileselect, fileselect),
    (.sampleselect, sampleselect),
    (.modetypeselect, modetypeselect),
    (.modselect, modselect environment),
    (.typeselect, typeselect),
    (.powerselect, ask Answer.int powerselect),
    (.callsignselect, callsignselect environment),
    (.gpioselect, ask Answer.int gpioselect),
    (.dmaselect, ask Answer.int dmaselect),
    (.bandwidthselect, ask Answer.float bandwidthselect),
    (.gpsselect, gpsStatus environment),
    (.volumeselect, assign volumeselect)]

/-- Calls one after another; each is observed when it has returned. -/
def runCalls : List (Call × Program) → Program
  | [], dialog => .done dialog
  | (call, program) :: rest, dialog =>
    (program dialog).andThen fun m ↦
      runCalls rest (m.emit [.completed call m.globals.freq])

def assistant (environment : Environment) : Program := runCalls (assistantCalls environment)

/-! ## What the steps lead to -/

theorem ask_leads {α : Type*} {relation : Dialog → Dialog → Prop} (read : Answer → Option α)
    {store : Option α → Globals → Globals}
    (hstore : ∀ dialog answer answers,
      relation dialog { dialog with globals := store answer dialog.globals, answers }) :
    Leads relation (ask read store) := by
  intro dialog final hdone
  rw [ask_eq] at hdone
  cases hdone
  exact hstore dialog _ _

/-- Only files have been opened. -/
def OnlyOpens (before after : Dialog) : Prop :=
  ∃ names : List CString, after.trace = before.trace ++ names.map .opened

theorem OnlyOpens.of_trace_eq {before after : Dialog} (htrace : after.trace = before.trace) :
    OnlyOpens before after :=
  ⟨[], htrace.trans (List.append_nil _).symm⟩

instance : IsTrans Dialog OnlyOpens where
  trans before middle after hfirst hsecond := by
    obtain ⟨firstNames, hmiddle⟩ := hfirst
    obtain ⟨secondNames, hafter⟩ := hsecond
    refine ⟨firstNames ++ secondNames, ?_⟩
    calc
      after.trace = middle.trace ++ secondNames.map .opened := hafter
      _ = before.trace ++ (firstNames ++ secondNames).map .opened := by
        rw [hmiddle, List.append_assoc, List.map_append]

/-- Whenever the program returns, it has only opened files. -/
abbrev Quiet (program : Program) : Prop := Leads OnlyOpens program

section Quiet

theorem ask_quiet {α : Type*} (read : Answer → Option α) (store : Option α → Globals → Globals) :
    Quiet (ask read store) :=
  ask_leads read fun _ _ _ ↦ .of_trace_eq rfl

theorem assign_quiet (update : Globals → Globals) : Quiet (assign update) :=
  .of_step fun _ ↦ .of_trace_eq rfl

theorem switch_quiet (table : ChannelTable) (number : Globals → CInt) :
    Quiet (table.switch number) := by
  intro dialog final hdone
  unfold ChannelTable.switch at hdone
  split at hdone
  · cases hdone
  · cases hdone
    exact .of_trace_eq rfl

theorem channelmodepmranalog_quiet : Quiet channelmodepmranalog :=
  (ask_quiet _ _).andThen (switch_quiet _ _)

theorem channelmodepmrdigital_quiet : Quiet channelmodepmrdigital :=
  (ask_quiet _ _).andThen (switch_quiet _ _)

theorem channelmodecb_quiet : Quiet channelmodecb := (ask_quiet _ _).andThen (switch_quiet _ _)

theorem channelmodepmr_quiet : Quiet channelmodepmr :=
  (ask_quiet _ _).andThen <| .ite _ channelmodepmranalog_quiet <|
    .ite _ channelmodepmrdigital_quiet (assign_quiet _)

theorem channelselect_quiet : Quiet channelselect :=
  (ask_quiet _ _).andThen <| .ite _ channelmodepmr_quiet <|
    .ite _ channelmodecb_quiet channelmodepmr_quiet

theorem modetypeselect_quiet : Quiet modetypeselect :=
  (ask_quiet _ _).andThen <| .ite _ channelselect_quiet <|
    .ite _ (ask_quiet _ _) channelselect_quiet

theorem typeselect_quiet : Quiet typeselect :=
  .ite _ channelmodepmranalog_quiet <| .ite _ channelmodepmrdigital_quiet (assign_quiet id)

theorem fileselect_quiet : Quiet fileselect :=
  (ask_quiet _ _).andThen (.of_step fun _ ↦ ⟨[fileFt], rfl⟩)

theorem sampleselect_quiet : Quiet sampleselect := .ite _ (assign_quiet id) (assign_quiet id)

theorem callsignselect_quiet (environment : Environment) : Quiet (callsignselect environment) :=
  (ask_quiet _ _).andThen <| .ite _ (ask_quiet _ _) (assign_quiet _)

/-- `gpsselect` changes nothing where it returns. -/
theorem gpsStatus_eq_done {environment : Environment} {dialog final : Dialog}
    (hdone : gpsStatus environment dialog = .done final) : final = dialog := by
  obtain ⟨globals, hglobals, hfinal⟩ := (Outcome.map_eq_done_iff _ _ _ _).mp hdone
  rw [gpsselect_eq] at hglobals
  split_ifs at hglobals
  rw [← hfinal, ← Outcome.done.inj hglobals]

theorem gpsStatus_quiet (environment : Environment) : Quiet (gpsStatus environment) := by
  intro dialog final hdone
  rw [gpsStatus_eq_done hdone]
  exact .of_trace_eq rfl

end Quiet

def SameFreq (before after : Dialog) : Prop := after.globals.freq = before.globals.freq

instance : IsTrans Dialog SameFreq where
  trans _ _ _ hfirst hsecond := Eq.trans hsecond hfirst

section SameFreq

theorem ask_sameFreq {α : Type*} (read : Answer → Option α)
    {store : Option α → Globals → Globals}
    (hstore : ∀ answer globals, (store answer globals).freq = globals.freq) :
    Leads SameFreq (ask read store) :=
  ask_leads read fun dialog answer _ ↦ hstore answer dialog.globals

theorem assign_sameFreq {update : Globals → Globals}
    (hupdate : ∀ globals, (update globals).freq = globals.freq) : Leads SameFreq (assign update) :=
  .of_step fun dialog ↦ hupdate dialog.globals

theorem callsignselect_sameFreq (environment : Environment) :
    Leads SameFreq (callsignselect environment) := by
  refine Leads.andThen (ask_sameFreq _ ?_) (.ite _ (ask_sameFreq _ ?_) (assign_sameFreq ?_))
  · exact fun _ _ ↦ rfl
  · exact fun _ _ ↦ rfl
  · exact fun _ ↦ rfl

theorem gpsStatus_sameFreq (environment : Environment) :
    Leads SameFreq (gpsStatus environment) := by
  intro dialog final hdone
  rw [gpsStatus_eq_done hdone]
  exact rfl

theorem volumeselect_freq (globals : Globals) : (volumeselect globals).freq = globals.freq := by
  unfold volumeselect
  dsimp only
  split_ifs <;> rfl

end SameFreq

/-- A modulator has been started, with the frequency there is. -/
def Starts (before after : Dialog) : Prop :=
  ∃ modulation, after = before.emit [.started modulation before.globals.freq]

theorem start_starts (environment : Environment) (modulation : Modulation) :
    Leads Starts (start environment modulation) := by
  intro dialog final hdone
  unfold start at hdone
  dsimp only at hdone
  split_ifs at hdone
  cases hdone
  exact ⟨modulation, rfl⟩

theorem modselect_starts (environment : Environment) :
    Leads Starts (modselect environment) := by
  intro dialog final hdone
  unfold modselect at hdone
  split at hdone
  · cases hdone
  · split_ifs at hdone
    · exact start_starts environment .modulationfm dialog final hdone
    · exact start_starts environment .modulationam dialog final hdone
    · exact start_starts environment .modulationfm dialog final hdone

end PiFunk.Menu
