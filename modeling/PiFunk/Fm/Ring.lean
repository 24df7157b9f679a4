import PiFunk.Fm.Modulator

/-!
# The ring of instruction slots

`setupDMA` counts 1024 instruction slots, and the commented-out link of its last slot closes a ring
of that many.  `play_fm` advances its pointer into the ring by four slots a sample and wraps it at
`BUFFERINSTRUCTIONS`, which is 65536.

So the pointer stays a multiple of four for ever, but from the 257th sample of the program on the
slots it uses are not among those that were set up.
-/

namespace PiFunk.Fm

open FuelLoop CyclicPointer

variable {δ : Type*}

/-- What one transmission finds: the file and the settings chosen before it, and the memory `malloc`
returns. -/
structure Session (δ : Type*) where
  fp : δ
  freq : ℚ
  samplerate : ℤ
  heap : ℕ → Byte

/-- The globals when the transmission starts. -/
def Session.prepare (session : Session δ) (modulator : Modulator δ) : Modulator δ :=
  { modulator with
    fp := session.fp, freq := session.freq, samplerate := session.samplerate }

/-- The calls `setupDMA (); play_fm ()`. -/
def Session.play (device : Device δ) (session : Session δ) : Program δ := fun fuel modulator ↦
  (setupDMA fuel (session.prepare modulator)).andThen (play_fm device session.heap fuel)

/-- Transmissions one after another. -/
def playSessions (device : Device δ) (sessions : List (Session δ)) : Program δ :=
  fun fuel modulator ↦
    match sessions with
    | [] => .done modulator
    | session :: rest =>
      (session.play device fuel modulator).andThen (playSessions device rest fuel)

/-! ## The number of samples -/

/-- The reads in a row that deliver what `readBytes` holds, at most `bound`. -/
def Device.matchingReads (device : Device δ) : ℕ → δ → ℕ
  | 0, _ => 0
  | bound + 1, fp =>
    if readBytes = readCount (device.read 1024 fp).1 then
      device.matchingReads bound (device.read 1024 fp).2 + 1
    else 0

/-- The descriptor behind the header. -/
def Device.behindHeader (device : Device δ) (fp : δ) : δ :=
  (fun fp ↦ (device.read 2 fp).2)^[22] (device.lseekEnd fp).2

/-- The iterations of the read loop of one transmission, at most `bound`. -/
def Session.reads (device : Device δ) (bound : ℕ) (session : Session δ) : ℕ :=
  device.matchingReads bound (device.behindHeader session.fp)

/-- The samples one transmission processes: at a sample rate of zero the first iteration faults. -/
def Session.samples (device : Device δ) (bound : ℕ) (session : Session δ) : ℕ :=
  if session.samplerate = 0 then 0 else session.reads device bound

/-- Whether one transmission returns: its loop is not cut off at the bound and does not fault. -/
def Session.returns (device : Device δ) (bound : ℕ) (session : Session δ) : Bool :=
  session.reads device bound < bound ∧ (session.samplerate = 0 → session.reads device bound = 0)

/-- The samples the transmissions process, up to the first one that does not return. -/
def samplesProcessed (device : Device δ) (bound : ℕ) : List (Session δ) → ℕ
  | [] => 0
  | session :: rest =>
    session.samples device bound +
      if session.returns device bound then samplesProcessed device bound rest else 0

/-! ## The invariant -/

/-- Where the `k`-th iteration of the program starts, and what it uses. -/
def ringPosition (k : ℕ) : ℕ × List ℕ × ℕ :=
  let start := (advance 4 BUFFERINSTRUCTIONS)^[k] 0
  (start, [start + 1, start + 2, start + 3], 1024)

/-- The part of an iteration that concerns the ring. -/
def Processed.ring (processed : Processed) : ℕ × List ℕ × ℕ :=
  (processed.start, processed.uses, processed.slots)

/-- After `count` samples the pointer has gone `count` steps round the ring. -/
structure OnRing (count : ℕ) (modulator : Modulator δ) : Prop where
  pointer : modulator.bufPtr = (advance 4 BUFFERINSTRUCTIONS)^[count] 0
  past : modulator.processed.map Processed.ring = (List.range count).map ringPosition

/-- Between the transmissions the slots have been counted or not. -/
structure Ready (count : ℕ) (modulator : Modulator δ) : Prop extends OnRing count modulator where
  slots : modulator.instrCnt = 0 ∨ modulator.instrCnt = 1024

/-- One sample takes the pointer one step round the ring. -/
theorem process_onRing {count : ℕ} {modulator : Modulator δ} (honRing : OnRing count modulator)
    (hslots : modulator.instrCnt = 1024) : OnRing (count + 1) (process modulator) where
  pointer := by
    rw [process_bufPtr, honRing.pointer, Function.iterate_succ_apply']
  past := by
    have hnew : (process modulator).processed.map Processed.ring =
        modulator.processed.map Processed.ring ++ [(modulator.bufPtr,
          [modulator.bufPtr + 1, modulator.bufPtr + 2, modulator.bufPtr + 3],
          modulator.instrCnt)] := by
      simp [process, Processed.ring]
    rw [hnew, honRing.past, honRing.pointer, hslots, List.range_succ, List.map_append]
    rfl

/-- Reading moves nothing on the ring. -/
theorem readData_onRing (device : Device δ) (size : ℕ) {count : ℕ} {modulator : Modulator δ}
    (honRing : OnRing count modulator) :
    OnRing count (readData device size modulator) :=
  ⟨honRing.pointer, honRing.past⟩

theorem skipHeader_spec (device : Device δ) (heap : ℕ → Byte) {count : ℕ}
    {modulator : Modulator δ} (honRing : OnRing count modulator) :
    OnRing count (skipHeader device heap modulator) ∧
      (skipHeader device heap modulator).instrCnt = modulator.instrCnt ∧
      (skipHeader device heap modulator).samplerate = modulator.samplerate ∧
      (skipHeader device heap modulator).fp = device.behindHeader modulator.fp := by
  have hkept : OnRing count (skipHeader device heap modulator) ∧
      (skipHeader device heap modulator).instrCnt = modulator.instrCnt ∧
      (skipHeader device heap modulator).samplerate = modulator.samplerate := by
    refine Function.Iterate.rec (fun m : Modulator δ ↦ OnRing count m ∧
      m.instrCnt = modulator.instrCnt ∧ m.samplerate = modulator.samplerate) ?_ ?_ 22
    · exact ⟨⟨honRing.pointer, honRing.past⟩, rfl, rfl⟩
    · rintro m ⟨hring, hslots, hrate⟩
      exact ⟨readData_onRing device 2 hring, hslots, hrate⟩
  exact ⟨hkept.1, hkept.2.1, hkept.2.2, readData_iterate_fp device 2 22 _⟩

/-! ## Runs -/

/-- A run from the position `count` has processed `samples` samples, and it has returned if
`returns` says so. -/
structure Played (count samples : ℕ) (returns : Bool) (outcome : Outcome Fault (Modulator δ)) :
    Prop where
  onRing : OnRing (count + samples) outcome.state
  slots : outcome.state.instrCnt = 1024
  returned : returns = true → outcome = .done outcome.state
  stuck : returns = false → ∀ next, outcome.andThen next = outcome

theorem Played.close {count samples : ℕ} {returns : Bool} {outcome : Outcome Fault (Modulator δ)}
    (hplayed : Played count samples returns outcome) :
    Played count samples returns (outcome.andThen fun m ↦ .done (m.emit [.close])) := by
  cases returns with
  | true =>
    rw [hplayed.returned rfl, Outcome.done_andThen]
    exact ⟨⟨hplayed.onRing.pointer, hplayed.onRing.past⟩, hplayed.slots, fun _ ↦ rfl, nofun⟩
  | false =>
    rw [hplayed.stuck rfl]
    exact hplayed

theorem loop_playIteration (device : Device δ) (fuel : ℕ) {count : ℕ} {modulator : Modulator δ}
    (honRing : OnRing count modulator) (hslots : modulator.instrCnt = 1024)
    (hrate : modulator.samplerate ≠ 0) :
    let reads := device.matchingReads fuel modulator.fp
    Played count reads (reads < fuel) (loop (playIteration device) fuel modulator) := by
  induction fuel generalizing count modulator with
  | zero => exact ⟨honRing, hslots, nofun, fun _ _ ↦ rfl⟩
  | succ fuel ih =>
    by_cases hmatch : readCount (device.read 1024 modulator.fp).1 = 0
    · have hnext := ih (process_onRing (readData_onRing device 1024 honRing) hslots) hslots hrate
      have hreads : device.matchingReads (fuel + 1) modulator.fp =
          device.matchingReads fuel (device.read 1024 modulator.fp).2 + 1 := if_pos hmatch.symm
      rw [loop_succ_again (playIteration_of_zero hmatch hrate), hreads]
      simp only [Nat.add_lt_add_iff_right]
      refine ⟨?_, hnext.slots, hnext.returned, hnext.stuck⟩
      rw [Nat.add_comm (device.matchingReads fuel _), ← Nat.add_assoc]
      exact hnext.onRing
    · have hreads : device.matchingReads (fuel + 1) modulator.fp = 0 := if_neg (Ne.symm hmatch)
      rw [loop_succ_exit (playIteration_of_ne_zero hmatch), hreads]
      exact ⟨readData_onRing device 1024 honRing, hslots, fun _ ↦ rfl, nofun⟩

/-- At a sample rate of zero it processes nothing: it faults if the first read matches. -/
theorem loop_playIteration_rate_zero (device : Device δ) (fuel : ℕ) {count : ℕ}
    {modulator : Modulator δ} (honRing : OnRing count modulator)
    (hslots : modulator.instrCnt = 1024) (hrate : modulator.samplerate = 0) :
    let reads := device.matchingReads (fuel + 1) modulator.fp
    Played count 0 (reads = 0) (loop (playIteration device) (fuel + 1) modulator) := by
  have hread : OnRing count (readData device 1024 modulator) := readData_onRing device 1024 honRing
  by_cases hmatch : readCount (device.read 1024 modulator.fp).1 = 0
  · have hreads : device.matchingReads (fuel + 1) modulator.fp =
        device.matchingReads fuel (device.read 1024 modulator.fp).2 + 1 := if_pos hmatch.symm
    rw [loop_succ_halted (playIteration_of_fault hmatch hrate), hreads]
    exact ⟨hread, hslots, nofun, fun _ _ ↦ rfl⟩
  · have hreads : device.matchingReads (fuel + 1) modulator.fp = 0 := if_neg (Ne.symm hmatch)
    rw [loop_succ_exit (playIteration_of_ne_zero hmatch), hreads]
    exact ⟨hread, hslots, fun _ ↦ rfl, nofun⟩

section Sessions

variable (device : Device δ) {fuel : ℕ} (hfuel : 8 < fuel)

include hfuel

theorem play_eq (session : Session δ) {count : ℕ} {modulator : Modulator δ}
    (hready : Ready count modulator) :
    ∃ entered, session.play device fuel modulator =
        (loop (playIteration device) fuel entered).andThen (fun m ↦ .done (m.emit [.close])) ∧
      OnRing count entered ∧ entered.instrCnt = 1024 ∧
      entered.samplerate = session.samplerate ∧
      entered.fp = device.behindHeader session.fp := by
  have hsetup := setupDMA_eq (session.prepare modulator) hfuel hready.slots
  have hcounted : OnRing count (session.prepare modulator).setUp := ⟨hready.pointer, hready.past⟩
  refine ⟨_, ?_, skipHeader_spec device session.heap hcounted⟩
  rw [Session.play, hsetup, Outcome.done_andThen, play_fm]

theorem play_spec (session : Session δ) {count : ℕ} {modulator : Modulator δ}
    (hready : Ready count modulator) :
    Played count (session.samples device fuel) (session.returns device fuel)
      (session.play device fuel modulator) := by
  obtain ⟨entered, hplay, honRing, hslots, hrate, hfp⟩ := play_eq device hfuel session hready
  rw [hplay, Session.samples, Session.returns, Session.reads, ← hfp, ← hrate]
  by_cases hzero : entered.samplerate = 0
  · obtain ⟨rest, rfl⟩ : ∃ rest, fuel = rest + 1 := ⟨fuel - 1, by omega⟩
    have hloop := (loop_playIteration_rate_zero device rest honRing hslots hzero).close
    have hbound : device.matchingReads (rest + 1) entered.fp = 0 ↔
        device.matchingReads (rest + 1) entered.fp < rest + 1 ∧
          (entered.samplerate = 0 → device.matchingReads (rest + 1) entered.fp = 0) :=
      ⟨fun hnone ↦ ⟨hnone ▸ Nat.succ_pos rest, fun _ ↦ hnone⟩, fun hboth ↦ hboth.2 hzero⟩
    rw [if_pos hzero, ← decide_eq_decide.mpr hbound]
    exact hloop
  · have hloop := (loop_playIteration device fuel honRing hslots hzero).close
    rw [if_neg hzero]
    simpa only [hzero, false_implies, and_true] using hloop

/-- The run lemma: the transmissions process their samples one after another. -/
theorem playSessions_onRing (sessions : List (Session δ)) {count : ℕ} {modulator : Modulator δ}
    (hready : Ready count modulator) :
    OnRing (count + samplesProcessed device fuel sessions)
      (playSessions device sessions fuel modulator).state := by
  induction sessions generalizing count modulator with
  | nil => exact hready.toOnRing
  | cons session rest ih =>
    have hplayed := play_spec device hfuel session hready
    rw [samplesProcessed, playSessions]
    cases hreturns : session.returns device fuel with
    | true =>
      have hrest := ih ⟨hplayed.onRing, .inr hplayed.slots⟩
      rw [hplayed.returned hreturns, Outcome.done_andThen, if_pos rfl, ← Nat.add_assoc]
      exact hrest
    | false =>
      rw [hplayed.stuck hreturns, if_neg Bool.false_ne_true, Nat.add_zero]
      exact hplayed.onRing

end Sessions

/-- Every iteration starts at a multiple of four and uses slots that were set up. -/
def RingAgreement (modulator : Modulator δ) : Prop :=
  ∀ processed ∈ modulator.processed,
    4 ∣ processed.start ∧ ∀ index ∈ processed.uses, index < processed.slots

theorem ringAgreement_iff {count : ℕ} {modulator : Modulator δ} (honRing : OnRing count modulator) :
    RingAgreement modulator ↔ count ≤ 256 := by
  have hpast : RingAgreement modulator ↔ ∀ position ∈ modulator.processed.map Processed.ring,
      4 ∣ position.1 ∧ ∀ index ∈ position.2.1, index < position.2.2 := by
    simp only [RingAgreement, List.forall_mem_map]
    rfl
  have hslots : (∀ k < count, (advance 4 BUFFERINSTRUCTIONS)^[k] 0 + 3 < 1024) ↔
      count ≤ 1024 / 4 := forall_slot_lt_iff (by decide) (by decide) (by decide) count
  rw [hpast, honRing.past, List.forall_mem_map]
  constructor
  · intro hagree
    refine hslots.mp fun k hk ↦ ?_
    exact (hagree k (List.mem_range.mpr hk)).2 _ (by simp [ringPosition])
  · intro hcount k hk
    refine ⟨dvd_advance_iterate (by decide) k, fun index hindex ↦ ?_⟩
    have hlast := hslots.mpr hcount k (List.mem_range.mp hk)
    simp only [ringPosition, List.mem_cons, List.not_mem_nil, or_false] at hindex ⊢
    omega

/-- The state of a program that has not transmitted yet: the three globals are as declared. -/
def Modulator.fresh (modulator : Modulator δ) : Modulator δ :=
  { modulator with instrCnt := 0, bufPtr := 0, processed := [] }

theorem fresh_ready (modulator : Modulator δ) : Ready 0 modulator.fresh :=
  ⟨⟨rfl, rfl⟩, .inl rfl⟩

/-- At every point of every sequence of transmissions, the ring of `setupDMA` and the pointer of
`play_fm` agree exactly when at most 256 samples have been processed since the program started. -/
theorem playSessions_ringAgreement_iff (device : Device δ) (sessions : List (Session δ))
    (modulator : Modulator δ) (fuel : ℕ) :
    RingAgreement (playSessions device sessions (fuel + 9) modulator.fresh).state ↔
      samplesProcessed device (fuel + 9) sessions ≤ 256 := by
  have honRing := playSessions_onRing device (Nat.lt_add_left fuel (Nat.lt_succ_self 8)) sessions
    (fresh_ready modulator)
  rw [Nat.zero_add] at honRing
  exact ringAgreement_iff honRing

/-- An empty file, which every read finds at its end. -/
def emptyFile : Device Unit := ⟨fun _ ↦ (0, ()), fun _ _ ↦ (some [], ())⟩

theorem emptyFile_matchingReads (bound : ℕ) (fp : Unit) :
    emptyFile.matchingReads bound fp = bound := by
  induction bound generalizing fp with
  | zero => rfl
  | succ bound ih => exact congrArg Nat.succ (ih _)

/-- The 257th sample of a single transmission uses the slots 1025 to 1027. -/
theorem playSessions_leaves_ring :
    ¬ RingAgreement (playSessions emptyFile [⟨(), 100, 22050, fun _ ↦ 0⟩] 257
      (Modulator.initial ()).fresh).state := by
  have honRing := playSessions_onRing emptyFile (show 8 < 257 by decide)
    [⟨(), 100, 22050, fun _ ↦ 0⟩] (fresh_ready (Modulator.initial ()))
  have hsamples : samplesProcessed emptyFile 257 [⟨(), 100, 22050, fun _ ↦ 0⟩] = 257 := by
    simp [samplesProcessed, Session.samples, Session.reads, Session.returns,
      emptyFile_matchingReads]
  rw [hsamples] at honRing
  exact fun hagree ↦ absurd ((ringAgreement_iff honRing).mp hagree) (by decide)

end PiFunk.Fm
