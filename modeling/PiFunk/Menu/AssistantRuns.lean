import PiFunk.Menu.Assistant

/-!
# Runs of the assistant

`modselect` is the fourth of the twelve calls, so a modulator is started before the type, the power,
the pin, the DMA channel and the bandwidth have been asked for.  It is started with the frequency
that `modetypeselect` has left, but `typeselect` behind it enters the channel tables again and can
overwrite that choice; no later call touches the frequency.
-/

namespace PiFunk.Menu

open FuelLoop

/-! ## Calls one after another -/

theorem runCalls_append (first second : List (Call × Program)) (dialog : Dialog) :
    runCalls (first ++ second) dialog = (runCalls first dialog).andThen (runCalls second) := by
  induction first generalizing dialog with
  | nil => rfl
  | cons entry rest ih =>
    obtain ⟨call, program⟩ := entry
    simp only [List.cons_append, runCalls]
    cases program dialog with
    | done middle => exact ih _
    | halted reason middle => rfl
    | running middle => rfl

/-- What calls that start no modulator can be observed to do. -/
def Event.Of (calls : List Call) : Event → Prop
  | .opened _ => True
  | .started _ _ => False
  | .completed call _ => call ∈ calls

theorem Event.Of.mono {first second : List Call} (hsubset : first ⊆ second) {event : Event}
    (hof : event.Of first) : event.Of second := by
  cases event with
  | opened name => trivial
  | started modulation freq => exact hof
  | completed call freq => exact hsubset hof

/-- Quiet calls start no modulator, and only the calls themselves complete. -/
theorem runCalls_quiet {calls : List (Call × Program)} (hquiet : ∀ call ∈ calls, Quiet call.2)
    {dialog final : Dialog} (hdone : runCalls calls dialog = .done final) :
    ∃ events, final.trace = dialog.trace ++ events ∧
      ∀ event ∈ events, event.Of (calls.map Prod.fst) := by
  induction calls generalizing dialog with
  | nil =>
    cases hdone
    exact ⟨[], (List.append_nil _).symm, List.forall_mem_nil _⟩
  | cons entry rest ih =>
    obtain ⟨call, program⟩ := entry
    obtain ⟨middle, hmiddle, hrest⟩ := (Outcome.andThen_eq_done_iff _ _ _).mp hdone
    obtain ⟨names, hnames⟩ := hquiet _ List.mem_cons_self dialog middle hmiddle
    obtain ⟨events, hevents, hof⟩ :=
      ih (fun other hother ↦ hquiet other (List.mem_cons_of_mem _ hother)) hrest
    refine ⟨names.map .opened ++ .completed call middle.globals.freq :: events, ?_, ?_⟩
    · calc
        final.trace = (middle.trace ++ [.completed call middle.globals.freq]) ++ events := hevents
        _ = dialog.trace ++
            (names.map .opened ++ .completed call middle.globals.freq :: events) := by
          rw [hnames, List.append_assoc, List.append_assoc, List.singleton_append]
    · refine List.forall_mem_append.mpr ⟨List.forall_mem_map.mpr fun _ _ ↦ trivial,
        List.forall_mem_cons.mpr ⟨List.mem_cons_self, fun event hevent ↦ ?_⟩⟩
      exact (hof event hevent).mono (List.subset_cons_self _ _)

/-- What every call keeps, and the record of its completion too, is kept by the calls together. -/
theorem runCalls_leads (relation : Dialog → Dialog → Prop) [IsTrans Dialog relation]
    (hrefl : ∀ dialog, relation dialog dialog)
    (hcompleted : ∀ dialog call, relation dialog
      (dialog.emit [.completed call dialog.globals.freq]))
    {calls : List (Call × Program)} (hcalls : ∀ call ∈ calls, Leads relation call.2) :
    Leads relation (runCalls calls) := by
  induction calls with
  | nil => exact .of_step hrefl
  | cons entry rest ih =>
    have hrest := ih fun other hother ↦ hcalls other (List.mem_cons_of_mem _ hother)
    exact (hcalls entry List.mem_cons_self).andThen
      (.andThen (.of_step fun dialog ↦ hcompleted dialog entry.1) hrest)

/-! ## The assistant -/

/-- The chosen frequency is the value that `modetypeselect` leaves: the modulators are started with
it, and it is still there at the end. -/
def KeepsChosenFreq (final : Dialog) : Prop :=
  ∀ chosen, .completed .modetypeselect chosen ∈ final.trace →
    (∀ modulation freq, .started modulation freq ∈ final.trace → freq = chosen) ∧
      final.globals.freq = chosen

/-- Every start of a modulator comes after the completion of the calls. -/
def StartsAfter (calls : List Call) (trace : List Event) : Prop :=
  ∀ before modulation freq after, trace = before ++ .started modulation freq :: after →
    ∀ call ∈ calls, ∃ left, .completed call left ∈ before

theorem assistantCalls_eq (environment : Environment) :
    assistantCalls environment = (assistantCalls environment).take 2 ++
      (.modetypeselect, modetypeselect) :: (.modselect, modselect environment) ::
        (.typeselect, typeselect) :: (assistantCalls environment).drop 5 := rfl

theorem firstCalls_quiet (environment : Environment) :
    ∀ call ∈ (assistantCalls environment).take 2, Quiet call.2 := by
  simp only [assistantCalls, List.take_succ_cons, List.take_zero, List.forall_mem_cons]
  exact ⟨fileselect_quiet, sampleselect_quiet, List.forall_mem_nil _⟩

theorem lastCalls_quiet (environment : Environment) :
    ∀ call ∈ (assistantCalls environment).drop 5, Quiet call.2 := by
  simp only [assistantCalls, List.drop_succ_cons, List.drop_zero, List.forall_mem_cons]
  exact ⟨ask_quiet _ _, callsignselect_quiet _, ask_quiet _ _, ask_quiet _ _, ask_quiet _ _,
    gpsStatus_quiet _, assign_quiet _, List.forall_mem_nil _⟩

theorem lastCalls_sameFreq (environment : Environment) :
    ∀ call ∈ (assistantCalls environment).drop 5, Leads SameFreq call.2 := by
  simp only [assistantCalls, List.drop_succ_cons, List.drop_zero, List.forall_mem_cons]
  exact ⟨ask_sameFreq _ fun _ _ ↦ rfl, callsignselect_sameFreq _,
    ask_sameFreq _ fun _ _ ↦ rfl, ask_sameFreq _ fun _ _ ↦ rfl, ask_sameFreq _ fun _ _ ↦ rfl,
    gpsStatus_sameFreq _, assign_sameFreq volumeselect_freq,
    List.forall_mem_nil _⟩

/-- What a run of `assistant` that returned has left in the trace: `typeselect` completes with the
frequency `left`, after a modulator has been started with the frequency `chosen`. -/
structure Ran (before : List Event) (chosen : ℚ) (modulation : Modulation) (between : List Event)
    (left : ℚ) (after : List Event) (final : Dialog) : Prop where
  trace : final.trace = before ++ .completed .modetypeselect chosen ::
    .started modulation chosen :: .completed .modselect chosen ::
      (between ++ .completed .typeselect left :: after)
  before_of : ∀ event ∈ before, event.Of [.fileselect, .sampleselect]
  between_of : ∀ event ∈ between, event.Of []
  after_of : ∀ event ∈ after, event.Of [.powerselect, .callsignselect, .gpioselect, .dmaselect,
    .bandwidthselect, .gpsselect, .volumeselect]
  freq : final.globals.freq = left

/-- The run lemma: every run that returned is of this form. -/
theorem assistant_ran {environment : Environment} {dialog final : Dialog}
    (hreturns : assistant environment { dialog with trace := [] } = .done final) :
    ∃ before chosen modulation between left after,
      Ran before chosen modulation between left after final := by
  rw [assistant, assistantCalls_eq, runCalls_append] at hreturns
  obtain ⟨prepared, hprepared, hchoose⟩ := (Outcome.andThen_eq_done_iff _ _ _).mp hreturns
  obtain ⟨chosen, hchosen, hstart⟩ := (Outcome.andThen_eq_done_iff _ _ _).mp hchoose
  obtain ⟨started, hstarted, htype⟩ := (Outcome.andThen_eq_done_iff _ _ _).mp hstart
  obtain ⟨typed, htyped, hlast⟩ := (Outcome.andThen_eq_done_iff _ _ _).mp htype
  obtain ⟨first, hfirst, hfirstOf⟩ := runCalls_quiet (firstCalls_quiet environment) hprepared
  obtain ⟨names, hnames⟩ := modetypeselect_quiet _ _ hchosen
  obtain ⟨modulation, rfl⟩ := modselect_starts environment _ _ hstarted
  obtain ⟨typeNames, htypeNames⟩ := typeselect_quiet _ _ htyped
  obtain ⟨after, hafter, hafterOf⟩ := runCalls_quiet (lastCalls_quiet environment) hlast
  refine ⟨first ++ names.map .opened, chosen.globals.freq, modulation, typeNames.map .opened,
    typed.globals.freq, after, ?_, ?_, ?_, hafterOf, ?_⟩
  · rw [hafter, Dialog.emit, htypeNames]
    simp only [Dialog.emit, hnames, hfirst]
    simp
  · exact List.forall_mem_append.mpr ⟨hfirstOf, List.forall_mem_map.mpr fun _ _ ↦ trivial⟩
  · exact List.forall_mem_map.mpr fun _ _ ↦ trivial
  · have hkept : SameFreq _ final := runCalls_leads SameFreq (fun _ ↦ rfl) (fun _ _ ↦ rfl)
      (lastCalls_sameFreq environment) _ final hlast
    exact hkept

section Ran

variable {before between after : List Event} {chosen left : ℚ} {modulation : Modulation}
  {final : Dialog} (hran : Ran before chosen modulation between left after final)

include hran

theorem Ran.eq_chosen {freq : ℚ} (hcompleted : .completed .modetypeselect freq ∈ final.trace) :
    freq = chosen := by
  have hbefore : .completed .modetypeselect freq ∉ before := fun hmem ↦
    absurd (hran.before_of _ hmem) (by simp [Event.Of])
  have hbetween : .completed .modetypeselect freq ∉ between := fun hmem ↦
    absurd (hran.between_of _ hmem) (by simp [Event.Of])
  have hafter : .completed .modetypeselect freq ∉ after := fun hmem ↦
    absurd (hran.after_of _ hmem) (by simp [Event.Of])
  rw [hran.trace] at hcompleted
  simpa [hbefore, hbetween, hafter] using hcompleted

theorem Ran.started_eq_chosen {other : Modulation} {freq : ℚ}
    (hstarted : .started other freq ∈ final.trace) : freq = chosen := by
  have hbefore : .started other freq ∉ before := hran.before_of _
  have hbetween : .started other freq ∉ between := hran.between_of _
  have hafter : .started other freq ∉ after := hran.after_of _
  rw [hran.trace] at hstarted
  have hthis : other = modulation ∧ freq = chosen := by
    simpa [hbefore, hbetween, hafter] using hstarted
  exact hthis.2

/-- The chosen frequency is kept exactly when `typeselect` leaves it. -/
theorem Ran.keepsChosenFreq_iff : KeepsChosenFreq final ↔ left = chosen := by
  constructor
  · intro hkeeps
    have hchosen : .completed .modetypeselect chosen ∈ final.trace := by simp [hran.trace]
    exact hran.freq.symm.trans (hkeeps chosen hchosen).2
  · intro hleft freq hcompleted
    rw [hran.eq_chosen hcompleted]
    exact ⟨fun _ _ hstarted ↦ hran.started_eq_chosen hstarted, hran.freq.trans hleft⟩

/-- `typeselect` has not completed before the modulator is started. -/
theorem Ran.not_startsAfter {calls : List Call} (hcalls : .typeselect ∈ calls) :
    ¬ StartsAfter calls final.trace := by
  intro hstarts
  have hsplit : final.trace = (before ++ [.completed .modetypeselect chosen]) ++
      .started modulation chosen :: .completed .modselect chosen ::
        (between ++ .completed .typeselect left :: after) := by
    rw [hran.trace, List.append_assoc, List.singleton_append]
  obtain ⟨freq, hcompleted⟩ := hstarts _ _ _ _ hsplit .typeselect hcalls
  have hbefore : .completed .typeselect freq ∉ before := fun hmem ↦
    absurd (hran.before_of _ hmem) (by simp [Event.Of])
  simp [hbefore] at hcompleted

end Ran

/-- In every run in which `assistant` returns, the modulator is started with the chosen frequency,
and the choice is kept exactly when `typeselect` leaves it. -/
theorem assistant_keepsChosenFreq_iff {environment : Environment} {dialog final : Dialog}
    (hreturns : assistant environment { dialog with trace := [] } = .done final) :
    ∃ modulation chosen left, .completed .modetypeselect chosen ∈ final.trace ∧
      .started modulation chosen ∈ final.trace ∧ .completed .typeselect left ∈ final.trace ∧
      (KeepsChosenFreq final ↔ left = chosen) := by
  obtain ⟨_, chosen, modulation, _, left, _, hran⟩ := assistant_ran hreturns
  refine ⟨modulation, chosen, left, ?_, ?_, ?_, hran.keepsChosenFreq_iff⟩
  · simp [hran.trace]
  · simp [hran.trace]
  · simp [hran.trace]

/-- Every run in which `assistant` returns has started a modulator before the type, the power, the
pin, the DMA channel and the bandwidth were selected. -/
theorem assistant_starts_too_early (environment : Environment) (dialog final : Dialog)
    (hreturns : assistant environment { dialog with trace := [] } = .done final) :
    ¬ (KeepsChosenFreq final ∧
      StartsAfter [.typeselect, .powerselect, .gpioselect, .dmaselect, .bandwidthselect]
        final.trace) := by
  obtain ⟨_, _, _, _, _, _, hran⟩ := assistant_ran hreturns
  exact fun hboth ↦ hran.not_startsAfter List.mem_cons_self hboth.2

/-- The modulators return. -/
def returning : Environment := ⟨fun _ ↦ true, 0x2000, 0x2004, 0x1000, 0x1004, 0x1008⟩

/-- The globals as declared, after FM has been selected in `modulationselect`. -/
def fmGlobals : Globals := { Globals.initial with freqmode := 1, mod := .text 0x2000 fm }

example : modulationselect returning ⟨.initial, [⟨some 1, some 1, none⟩], []⟩ =
    .done ⟨fmGlobals, [], []⟩ := rfl

/-- The user names the file `fm`, types 100 MHz in frequency mode and gives the default of every
other step. -/
def frequencyDialog : Dialog where
  globals := fmGlobals
  answers :=
    [⟨none, none, some fm⟩, ⟨some 2, some 2, none⟩, ⟨some 100, some 100, none⟩,
      ⟨some 7, some 7, none⟩, ⟨some 2, some 2, none⟩, ⟨some 4, some 4, none⟩,
      ⟨some 14, some 14, none⟩, ⟨some 12, some 12.5, none⟩]
  trace := []

theorem assistant_starts_too_early_frequency :
    ∃ final, assistant returning frequencyDialog = .done final ∧
      ¬ (KeepsChosenFreq final ∧
        StartsAfter [.typeselect, .powerselect, .gpioselect, .dmaselect, .bandwidthselect]
          final.trace) := by
  have hreturns : ∃ final, assistant returning frequencyDialog = .done final := ⟨_, rfl⟩
  obtain ⟨final, hfinal⟩ := hreturns
  exact ⟨final, hfinal, assistant_starts_too_early returning frequencyDialog final hfinal⟩

/-- The user chooses channel 1 of the analog PMR band, and is then asked for a channel again. -/
def channelDialog : Dialog where
  globals := fmGlobals
  answers :=
    [⟨none, none, some fm⟩, ⟨some 1, some 1, none⟩, ⟨some 1, some 1, none⟩,
      ⟨some 1, some 1, none⟩, ⟨some 1, some 1, none⟩, ⟨some 5, some 5, none⟩,
      ⟨some 7, some 7, none⟩, ⟨some 2, some 2, none⟩, ⟨some 4, some 4, none⟩,
      ⟨some 14, some 14, none⟩, ⟨some 12, some 12.5, none⟩]
  trace := []

/-- The first choice is overwritten. -/
theorem assistant_overwrites_channel :
    ¬ ∀ final, assistant returning channelDialog = .done final →
      KeepsChosenFreq final ∧
        StartsAfter [.typeselect, .powerselect, .gpioselect, .dmaselect, .bandwidthselect]
          final.trace := by
  intro hkeeps
  have hreturns : ∃ final, assistant returning channelDialog = .done final ∧
      final.trace[3]? = some (.completed .modetypeselect (toFloat 446.00625)) ∧
      final.globals.freq = toFloat 446.05625 := ⟨_, rfl, rfl, rfl⟩
  obtain ⟨final, hfinal, hchosen, hfreq⟩ := hreturns
  have hkept := ((hkeeps final hfinal).1 _ (List.mem_of_getElem? hchosen)).2
  rw [hfreq] at hkept
  exact absurd hkept (by decide +kernel)

end PiFunk.Menu
