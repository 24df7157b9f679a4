import PiFunk.Library.LastWrite
import PiFunk.Transmit.Operations

/-!
# Signals during a transmission

`setupDMA` installs `handSig` for four signals, and `handSig` prints a line and calls `exit (0)`.
No clean-up function is registered with `atexit`.  So a signal leaves every register as the
transmit operations have left it: the generator keeps the last carrier switch, and the DMA channel
is not reset, because no operation ever stores to its control register.
-/

namespace PiFunk.Transmit

open FuelLoop LastWrite

variable {δ : Type*}

/-- The steps of the handler. -/
def handSig : List Step := [.exit 0]

/-- The process that receives a signal at some point: the handler runs if it has been installed,
and otherwise the process ends at once. -/
def deliver (number : Fm.Signal) (point : List Step) : List Step :=
  if .modulator (.signal number) ∈ point then point ++ handSig else point

/-- What a step writes to the control register of the generator. -/
def Step.controlWrite? : Step → Option CInt
  | .store .CM_GP0CTL value => some value
  | _ => none

/-- What a step writes to the control register of the DMA channel. -/
def Step.dmaWrite? : Step → Option CInt
  | .store .DMA_CS value => some value
  | _ => none

/-- The last write to the control register of the generator disables it. -/
def CarrierOff (steps : List Step) : Prop :=
  ∃ word, lastSome Step.controlWrite? steps = some word ∧
    Clock.passwordGiven word = true ∧ Clock.enab word = false

/-- The last write to the control register of the DMA channel resets it. -/
def DmaReset (steps : List Step) : Prop :=
  lastSome Step.dmaWrite? steps = some Clock.BCM2708_DMA_RESET

/-- The process has ended with the generator disabled and the DMA channel reset. -/
structure EndsSafely (steps : List Step) : Prop where
  carrier : CarrierOff steps
  dma : DmaReset steps

/-! ## The generator behind the writes -/

/-- What a step leaves in the control register, if the clock manager takes it. -/
def Step.control? (step : Step) : Option CInt :=
  (step.controlWrite?.filter Clock.passwordGiven).map Clock.followEnab

/-- One step: the control register takes the writes with the password. -/
theorem apply_control (peripherals : Clock.Peripherals) (step : Step) :
    (step.apply peripherals).CM_GP0CTL = step.control?.getD peripherals.CM_GP0CTL := by
  cases step with
  | store register value =>
    cases register with
    | CM_GP0CTL =>
      simp only [Step.apply, Step.control?, Step.controlWrite?, Clock.storeControl, Option.filter]
      split_ifs <;> rfl
    | CM_GP0DIV => rfl
    | GPFSEL0 => rfl
    | DMA_CS => rfl
  | awaitBusy => rfl
  | delayMicrosecondsHard howLong => rfl
  | usleep2 us => rfl
  | malloc size => rfl
  | mmap address length => rfl
  | modulator event => rfl
  | exit status => rfl

theorem enab_followEnab (word : CInt) : Clock.enab (Clock.followEnab word) = Clock.enab word := by
  unfold Clock.followEnab
  split_ifs <;> simp [Clock.enab]

/-- When the last write disables the generator, it is off, whatever the registers held before. -/
theorem CarrierOff.generator_off {steps : List Step} (hoff : CarrierOff steps)
    (peripherals : Clock.Peripherals) :
    (steps.foldl Step.apply peripherals).enabled = false := by
  obtain ⟨word, hlast, hpassword, hdisabled⟩ := hoff
  have hcontrol : lastSome Step.control? steps = some (Clock.followEnab word) := by
    refine lastSome_of_refines (fun step hnone ↦ ?_) (fun step hsome ↦ ?_) hlast
    · rw [Step.control?, hnone]
      rfl
    · rw [Step.control?, hsome, Option.filter_some, if_pos hpassword]
      rfl
  have hfinal := foldl_read Step.apply Clock.Peripherals.CM_GP0CTL Step.control? apply_control steps
    peripherals
  calc
    (steps.foldl Step.apply peripherals).enabled =
        Clock.enab ((lastSome Step.control? steps).getD peripherals.CM_GP0CTL) :=
      congrArg Clock.enab hfinal
    _ = Clock.enab (Clock.followEnab word) := by rw [hcontrol, Option.getD_some]
    _ = Clock.enab word := enab_followEnab word
    _ = false := hdisabled

/-! ## What the operations write -/

/-- No step writes to the DMA control register. -/
def KeepsDma (steps : List Step) : Prop := ∀ step ∈ steps, step.dmaWrite? = none

theorem KeepsDma.append {first second : List Step} (hfirst : KeepsDma first)
    (hsecond : KeepsDma second) : KeepsDma (first ++ second) :=
  List.forall_mem_append.mpr ⟨hfirst, hsecond⟩

theorem keepsDma_carrierSteps (setupword : Clock.GPCTL) : KeepsDma (carrierSteps setupword) := by
  simp [KeepsDma, carrierSteps, Step.dmaWrite?]

theorem keepsDma_askSteps (events : List Ask.Event) : KeepsDma (events.flatMap askSteps) := by
  refine List.forall_mem_flatMap.mpr fun event _ ↦ ?_
  cases event with
  | carrierhigh => exact keepsDma_carrierSteps _
  | carrierlow => exact keepsDma_carrierSteps _
  | delayMicrosecondsHard howLong => simp [askSteps, Step.dmaWrite?]
  | usleep2 us => simp [askSteps, Step.dmaWrite?]

theorem keepsDma_modulator (events : List Fm.Event) : KeepsDma (events.map .modulator) :=
  List.forall_mem_map.mpr fun _ _ ↦ rfl

section Runs

variable (surroundings : Surroundings δ) (fuel : ℕ)

theorem runModulator_keepsDma (program : Fm.Program δ) {process : Process δ}
    (hkept : KeepsDma process.steps) :
    KeepsDma (runModulator program fuel process).state.steps := by
  rw [runModulator, Outcome.state_map]
  exact hkept.append (keepsDma_modulator _)

theorem setup_io_keepsDma (memory mapped : CInt) {process : Process δ}
    (hkept : KeepsDma process.steps) :
    KeepsDma (setup_io surroundings memory mapped fuel process).state.steps := by
  have hmalloc (size : ℕ) : KeepsDma [.malloc size] := by simp [KeepsDma, Step.dmaWrite?]
  have hmmap (address : CInt) (length : ℕ) : KeepsDma [.mmap address length] := by
    simp [KeepsDma, Step.dmaWrite?]
  have hallocated := hkept.append (hmalloc (BLOCK_SIZE + (surroundings.PAGE_SIZE - 1)))
  dsimp only [setup_io]
  -- each branch adds its own steps to those of the branches before it
  split_ifs
  · exact hkept
  · exact hallocated
  · exact hallocated.append (hmmap _ _)
  · exact (hallocated.append (hmmap _ _)).append (keepsDma_carrierSteps _)
  · exact hallocated
  · exact hallocated.append (keepsDma_carrierSteps _)

theorem setup_fm_keepsDma (mapped : CInt) {process : Process δ} (hkept : KeepsDma process.steps) :
    KeepsDma (setup_fm mapped fuel process).state.steps := by
  have hmmap : KeepsDma [.mmap 0 BCM_HOST_GET_PERIPHERAL_SIZE] := by
    simp [KeepsDma, Step.dmaWrite?]
  dsimp only [setup_fm]
  split_ifs <;> exact hkept.append hmmap

/-- One call, whatever the system answers and however it ends. -/
theorem run_keepsDma (call : Call δ) {process : Process δ} (hkept : KeepsDma process.steps) :
    KeepsDma (call.run surroundings fuel process).state.steps := by
  cases call with
  | setup_io memory mapped => exact setup_io_keepsDma surroundings fuel memory mapped hkept
  | setupDMA => exact runModulator_keepsDma fuel Fm.setupDMA hkept
  | carrierhigh => exact hkept.append (keepsDma_carrierSteps _)
  | carrierlow => exact hkept.append (keepsDma_carrierSteps _)
  | sendByteAsk byte sleep =>
    rw [Call.run, sendByteAsk, Outcome.state_map]
    exact hkept.append (keepsDma_askSteps _)
  | modulationfm mapped session =>
    exact Outcome.andThen_state_of_invariant (fun p : Process δ ↦ KeepsDma p.steps)
      (setup_fm_keepsDma fuel mapped hkept) fun _ ↦ runModulator_keepsDma fuel _

/-- The run lemma: no call ever writes to the DMA control register. -/
theorem runCalls_keepsDma (calls : List (Call δ)) {process : Process δ}
    (hkept : KeepsDma process.steps) :
    KeepsDma (runCalls surroundings calls fuel process).state.steps := by
  induction calls generalizing process with
  | nil => exact hkept
  | cons call rest ih =>
    exact Outcome.andThen_state_of_invariant (fun p : Process δ ↦ KeepsDma p.steps)
      (run_keepsDma surroundings fuel call hkept) fun _ ↦ ih

end Runs

/-! ## Delivery -/

theorem lastSome_deliver {β : Type*} (write : Step → Option β) (hexit : write (.exit 0) = none)
    (number : Fm.Signal) (point : List Step) :
    lastSome write (deliver number point) = lastSome write point := by
  unfold deliver
  split_ifs
  · rw [lastSome_append, handSig, lastSome_cons, lastSome_nil, hexit]
    rfl
  · rfl

/-- The state in which the program starts. -/
def Process.start (process : Process δ) : Process δ := { process with steps := [] }

/-- A signal at any point of any sequence of calls ends the process without a reset of the DMA
channel, and leaves the carrier as the last carrier switch before that point has set it. -/
theorem deliver_ends_unsafely (surroundings : Surroundings δ) (calls : List (Call δ))
    (process : Process δ) (fuel : ℕ) (number : Fm.Signal) (count : ℕ) :
    let point := (runCalls surroundings calls fuel process.start).state.steps.take count
    ¬ EndsSafely (deliver number point) ∧
      (CarrierOff (deliver number point) ↔ CarrierOff point) := by
  intro point
  have hstart : KeepsDma process.start.steps := List.forall_mem_nil _
  have hkept : KeepsDma point := fun step hstep ↦
    runCalls_keepsDma surroundings fuel calls hstart step (List.mem_of_mem_take hstep)
  have hnoWrite : lastSome Step.dmaWrite? (deliver number point) = none := by
    rw [lastSome_deliver Step.dmaWrite? rfl, lastSome_eq_none_iff]
    exact hkept
  refine ⟨fun hsafe ↦ ?_, ?_⟩
  · have hreset := hsafe.dma
    rw [DmaReset, hnoWrite] at hreset
    exact absurd hreset nofun
  · rw [CarrierOff, lastSome_deliver Step.controlWrite? rfl, CarrierOff]

/-- A `SIGINT` after `setupDMA (); carrierhigh ()` ends the process with the carrier on. -/
theorem deliver_leaves_carrier_on :
    let process : Process Unit :=
      { Process.initial () with
        modulator := { Fm.Modulator.initial () with freq := 100, samplerate := 22050 } }
    let point := (runCalls ⟨4096, 3, Fm.emptyFile⟩ [.setupDMA, .carrierhigh] 9
      process).state.steps
    .modulator (.signal .SIGINT) ∈ point ∧ ¬ CarrierOff (deliver .SIGINT point) ∧
      ¬ EndsSafely (deliver .SIGINT point) := by
  intro process point
  have hsetup := Fm.setupDMA_eq { process.modulator with trace := [] } (show 8 < 9 by decide)
    (.inl rfl)
  have hpoint : point = [.modulator (.signal .SIGINT), .modulator (.signal .SIGTERM),
      .modulator (.signal .SIGHUP), .modulator (.signal .SIGQUIT),
      .store .CM_GP0CTL 0x5A000216, .awaitBusy] := by
    simp only [point, runCalls, Call.run, setupDMA, runModulator, hsetup]
    rfl
  have hlast : lastSome Step.controlWrite? (deliver .SIGINT point) = some 0x5A000216 := by
    rw [lastSome_deliver Step.controlWrite? rfl, hpoint]
    rfl
  have hcarrier : ¬ CarrierOff (deliver .SIGINT point) := by
    rintro ⟨word, hword, _, hoff⟩
    obtain rfl := Option.some.inj (hlast.symm.trans hword)
    exact absurd hoff (by decide)
  exact ⟨by rw [hpoint]; decide, hcarrier, fun hsafe ↦ hcarrier hsafe.carrier⟩

end PiFunk.Transmit
