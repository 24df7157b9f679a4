import PiFunk.Fm.Modulator

/-!
# Playing a file

A sound file is a 44-byte header and the samples behind it, two bytes each.  `read` delivers any
number of bytes between one and what it is asked for, as long as the file has some left, and none
at the end of the file.

`play_fm` moves the file offset to the end before it reads, and its loop goes on while `read`
delivers nothing.  So no sample of any file reaches the loop body, and the loop never ends.
-/

namespace PiFunk.Fm

open FuelLoop

structure WavFile where
  header : List Byte
  samples : List (BitVec 16)
  header_length : header.length = 44

/-- The bytes of the file, the lower byte of a sample first. -/
def WavFile.content (file : WavFile) : List Byte :=
  file.header ++ file.samples.flatMap fun sample ↦ [sample.extractLsb' 0 8, sample.extractLsb' 8 8]

/-- A file that is open for reading, and how many bytes the system is willing to deliver at each
of its reads. -/
structure OpenFile where
  content : List Byte
  offset : ℕ
  chunks : ℕ → ℕ
  reads : ℕ

namespace OpenFile

/-- The number of bytes the next `read` delivers. -/
def delivered (file : OpenFile) (size : ℕ) : ℕ :=
  min (min size (file.content.length - file.offset)) (max 1 (file.chunks file.reads))

theorem delivered_eq_zero_iff (file : OpenFile) {size : ℕ} (hsize : 0 < size) :
    file.delivered size = 0 ↔ file.content.length ≤ file.offset := by
  unfold delivered
  omega

/-- The offset is at the end of the file. -/
def AtEnd (file : OpenFile) : Prop := file.content.length ≤ file.offset

/-- An open file answers `lseek` and `read`. -/
def device : Device OpenFile where
  lseekEnd file := (toInt file.content.length, { file with offset := file.content.length })
  read size file :=
    let count := file.delivered size
    (some ((file.content.drop file.offset).take count),
      { file with offset := file.offset + count, reads := file.reads + 1 })

theorem lseekEnd_atEnd (file : OpenFile) : (device.lseekEnd file).2.AtEnd :=
  le_refl file.content.length

theorem read_atEnd {file : OpenFile} (hend : file.AtEnd) (size : ℕ) :
    (device.read size file).2.AtEnd :=
  Nat.le_add_right_of_le hend

theorem readCount_of_atEnd {file : OpenFile} (hend : file.AtEnd) (size : ℕ) :
    readCount (device.read size file).1 = 0 := by
  have hnothing : file.content.drop file.offset = [] := List.drop_eq_nil_of_le hend
  simp only [device, readCount, hnothing, List.take_nil, List.length_nil, Nat.cast_zero]

end OpenFile

section Loop

variable (heap : ℕ → Byte) (modulator : Modulator OpenFile)

/-- Reading the header happens at the end of the file. -/
theorem skipHeader_atEnd : (skipHeader OpenFile.device heap modulator).fp.AtEnd ∧
    (skipHeader OpenFile.device heap modulator).samplerate = modulator.samplerate := by
  refine Function.Iterate.rec
    (fun m : Modulator OpenFile ↦ m.fp.AtEnd ∧ m.samplerate = modulator.samplerate) ?_ ?_ 22
  · exact ⟨OpenFile.lseekEnd_atEnd modulator.fp, rfl⟩
  · rintro m ⟨hend, hrate⟩
    exact ⟨OpenFile.read_atEnd hend 2, hrate⟩

theorem play_fm_diverges (hrate : modulator.samplerate ≠ 0) :
    Diverges (play_fm OpenFile.device heap) modulator := by
  intro fuel
  have hstart := skipHeader_atEnd heap modulator
  obtain ⟨reached, hrunning⟩ := loop_running_of_invariant
    (fun m : Modulator OpenFile ↦ m.fp.AtEnd ∧ m.samplerate ≠ 0)
    (fun m ⟨hend, hne⟩ ↦ .inl ⟨_, playIteration_of_zero
        (OpenFile.readCount_of_atEnd hend 1024) hne, OpenFile.read_atEnd hend 1024, hne⟩)
    (skipHeader OpenFile.device heap modulator) ⟨hstart.1, hstart.2.symm ▸ hrate⟩ fuel
  exact ⟨reached, by rw [play_fm, hrunning, Outcome.running_andThen]⟩

theorem play_fm_halted (hrate : modulator.samplerate = 0) (fuel : ℕ) :
    ∃ reached, play_fm OpenFile.device heap (fuel + 1) modulator =
      .halted .divisionByZero reached := by
  have hstart := skipHeader_atEnd heap modulator
  have hfault := playIteration_of_fault (OpenFile.readCount_of_atEnd hstart.1 1024)
    (hstart.2.trans hrate)
  exact ⟨_, by rw [play_fm, loop_succ_halted hfault, Outcome.halted_andThen]⟩

theorem play_fm_not_returns (final : Modulator OpenFile) :
    ¬ Returns (play_fm OpenFile.device heap) modulator final := by
  by_cases hrate : modulator.samplerate = 0
  · rintro ⟨fuel, hdone⟩
    cases fuel with
    | zero => cases hdone
    | succ fuel =>
      obtain ⟨reached, hhalted⟩ := play_fm_halted heap modulator hrate fuel
      rw [hhalted] at hdone
      cases hdone
  · exact (play_fm_diverges heap modulator hrate).not_returns final

end Loop

/-- Between the two states the loop body has processed the samples exactly once and in order, each
one filtered against its predecessor. -/
def PlaysEverySample (samples : List (BitVec 16)) (before after : Modulator OpenFile) : Prop :=
  ∃ played, after.processed = before.processed ++ played ∧
    played.map Processed.sample = samples ∧
    played.IsChain fun previous next ↦ next.dataold = previous.datanew

/-- For no file and no way of splitting it into reads does `play_fm` return with every sample
processed. -/
theorem play_fm_plays_no_file (file : WavFile) (chunks : ℕ → ℕ) (heap : ℕ → Byte)
    (modulator : Modulator OpenFile) :
    let opened := { modulator with fp := ⟨file.content, 0, chunks, 0⟩ }
    ¬ ∃ final, Returns (play_fm OpenFile.device heap) opened final ∧
      PlaysEverySample file.samples opened final := by
  rintro opened ⟨final, hreturns, _⟩
  exact play_fm_not_returns heap opened final hreturns

/-- A file with a single sample, delivered in full chunks at 22050 Hz. -/
theorem play_fm_plays_not_one_sample :
    let file : WavFile := ⟨List.replicate 44 0, [1], rfl⟩
    let opened : Modulator OpenFile :=
      { Modulator.initial ⟨file.content, 0, fun _ ↦ 1024, 0⟩ with
        freq := 100, samplerate := 22050, instrCnt := 1024 }
    ¬ ∃ final, Returns (play_fm OpenFile.device fun _ ↦ 0) opened final ∧
      PlaysEverySample file.samples opened final := by
  rintro file opened ⟨final, hreturns, _⟩
  exact (play_fm_diverges (fun _ ↦ 0) opened (by decide)).not_returns final hreturns

end PiFunk.Fm
