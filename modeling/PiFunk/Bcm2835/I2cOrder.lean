import PiFunk.Bcm2835.I2c

/-!
# The order of a read behind a write

`bcm2835_i2c_write_read_rs` writes a command and reads the answer behind a repeated start.  It may
meet any device.  Whatever the device does, the command goes out from its first byte on, the answer
is stored in the order it is read and stays inside its buffer, and this holds at every point of a
run.  But only the first sixteen bytes of a command are ever written: the loop that would write the
rest is missing, and the length that is set includes them.
-/

namespace PiFunk.Bcm2835

open Display FuelLoop

variable {δ : Type*}

/-- The accesses so far. -/
abbrev Log := List (Access BscRegister)

/-- The command has gone out up to a byte, and the bytes read so far are the first ones of the
buffer; nothing else in the memory has changed. -/
structure Orderly (signedness : Signedness) (memory : ℕ → Byte) (cmds : ℕ) (cmds_len : CInt)
    (buf : ℕ) (buf_len : CInt) (transfer : I2cTransfer (δ × Log)) : Prop where
  written : ∃ sent ≤ min BSC_FIFO_SIZE cmds_len.toNat,
    written .FIFO transfer.device.2 = (bytes memory cmds sent).map (promote signedness)
  fetched : ∃ got ≤ buf_len.toNat, fetched .FIFO transfer.device.2 = bytes transfer.memory buf got ∧
    ∀ address, (∀ k < got, address ≠ buf + k) → transfer.memory address = memory address

/-- What has gone out by the time the command is written. -/
def command (signedness : Signedness) (memory : ℕ → Byte) (cmds : ℕ) (cmds_len : CInt) :
    List CInt :=
  (bytes memory cmds (min BSC_FIFO_SIZE cmds_len.toNat)).map (promote signedness)

/-! ## Accesses to the other registers -/

/-- The FIFO has not been accessed. -/
structure Quiet (before after : δ × Log) : Prop where
  written : written .FIFO after.2 = written .FIFO before.2
  fetched : fetched .FIFO after.2 = fetched .FIFO before.2

theorem Quiet.trans {first second third : δ × Log} (hfirst : Quiet first second)
    (hsecond : Quiet second third) : Quiet first third :=
  ⟨hsecond.written.trans hfirst.written, hsecond.fetched.trans hfirst.fetched⟩

section Quiet

variable (peripheral : Peripheral BscRegister δ) (device : δ × Log) {register : BscRegister}

theorem quiet_read (hother : register ≠ .FIFO) :
    Quiet device (peripheral.logged.read register device).2 := by
  constructor <;> simp [Peripheral.logged, written, fetched, hother]

theorem quiet_write (hother : register ≠ .FIFO) (value : CInt) :
    Quiet device (peripheral.logged.write register value device) := by
  constructor <;> simp [Peripheral.logged, written, fetched, hother]

theorem quiet_peri_set_bits (value mask : CInt) :
    Quiet device (peripheral.logged.peri_set_bits .C value mask device) :=
  (quiet_read peripheral device (by decide)).trans (quiet_write peripheral _ (by decide) _)

theorem quiet_prepare (len dlen : CInt) (transfer : I2cTransfer (δ × Log)) :
    Quiet transfer.device (prepare peripheral.logged len dlen transfer).device :=
  ((quiet_peri_set_bits peripheral _ _ _).trans (quiet_write peripheral _ (by decide) _)).trans
    (quiet_write peripheral _ (by decide) _)

theorem quiet_restart (delay : δ → δ) (len : CInt) (transfer : I2cTransfer (δ × Log)) :
    Quiet transfer.device
      (restart peripheral.logged (Prod.map delay id) len transfer).device :=
  ((quiet_write peripheral _ (by decide) _).trans (quiet_write peripheral _ (by decide) _)).trans
    ⟨rfl, rfl⟩

theorem awaitStart_of_quiet (invariant : I2cTransfer (δ × Log) → Prop)
    (hquiet : ∀ transfer device, invariant transfer → Quiet transfer.device device →
      invariant { transfer with device }) {transfer : I2cTransfer (δ × Log)}
    (htransfer : invariant transfer) (fuel : ℕ) :
    invariant (awaitStart peripheral.logged fuel transfer).state := by
  refine loop_state_of_invariant _ (fun reached hreached ↦ ?_) htransfer fuel
  have hpolled := hquiet _ _ hreached
    (quiet_read peripheral reached.device (by decide : .S ≠ BscRegister.FIFO))
  have hagain := hquiet _ _ hpolled
    (quiet_read peripheral _ (by decide : .S ≠ BscRegister.FIFO))
  dsimp only
  split_ifs
  · exact hpolled
  · exact hagain
  · exact hagain

end Quiet

/-! ## Writing the command -/

/-- The command is being written. -/
structure Commanding (signedness : Signedness) (memory : ℕ → Byte) (cmds : ℕ) (cmds_len : CInt)
    (transfer : I2cTransfer (δ × Log)) : Prop where
  unchanged : transfer.memory = memory
  counts : transfer.i.toNat + transfer.remaining.toNat = cmds_len.toNat
  few : transfer.i.toNat ≤ BSC_FIFO_SIZE
  written : Bcm2835.written .FIFO transfer.device.2 =
    (bytes memory cmds transfer.i.toNat).map (promote signedness)
  fetched : Bcm2835.fetched .FIFO transfer.device.2 = []

section Commanding

variable {signedness : Signedness} (peripheral : Peripheral BscRegister δ) {memory : ℕ → Byte}
  {cmds buf : ℕ} {cmds_len buf_len : CInt} {transfer : I2cTransfer (δ × Log)}

theorem Commanding.orderly (hcommanding : Commanding signedness memory cmds cmds_len transfer) :
    Orderly signedness memory cmds cmds_len buf buf_len transfer where
  written := by
    have hcounts := hcommanding.counts
    exact ⟨_, le_min hcommanding.few (by omega), hcommanding.written⟩
  fetched := ⟨0, Nat.zero_le _, hcommanding.fetched, fun address _ ↦
    congrFun hcommanding.unchanged address⟩

theorem Commanding.of_quiet (hcommanding : Commanding signedness memory cmds cmds_len transfer)
    {device : δ × Log} (hquiet : Quiet transfer.device device) :
    Commanding signedness memory cmds cmds_len { transfer with device } :=
  ⟨hcommanding.unchanged, hcommanding.counts, hcommanding.few,
    hquiet.written.trans hcommanding.written, hquiet.fetched.trans hcommanding.fetched⟩

theorem Commanding.put (hcommanding : Commanding signedness memory cmds cmds_len transfer)
    (hmore : transfer.remaining ≠ 0) (hroom : transfer.i.toNat < BSC_FIFO_SIZE) :
    Commanding signedness memory cmds cmds_len
      (transfer.put signedness peripheral.logged cmds) := by
  obtain ⟨hnext, hleft⟩ := counts_succ hcommanding.counts hmore
  have hcounts := hcommanding.counts
  refine ⟨hcommanding.unchanged, ?_, ?_, ?_, ?_⟩
  · change (transfer.i + 1).toNat + (transfer.remaining - 1).toNat = _
    omega
  · change (transfer.i + 1).toNat ≤ _
    omega
  · change Bcm2835.written .FIFO (transfer.device.2 ++ [.writeTo .FIFO _]) =
      (bytes memory cmds (transfer.i + 1).toNat).map _
    rw [hnext, bytes_succ, List.map_append, ← hcommanding.written, hcommanding.unchanged]
    simp [Bcm2835.written]
  · refine Eq.trans ?_ hcommanding.fetched
    simp [I2cTransfer.put, Peripheral.logged, Bcm2835.fetched]

/-- The step and the run lemma of the loop that fills the FIFO. -/
theorem Commanding.populate (hcommanding : Commanding signedness memory cmds cmds_len transfer)
    (fuel : ℕ) :
    Commanding signedness memory cmds cmds_len
        (populate signedness peripheral.logged cmds fuel transfer).state ∧
      ∀ final, populate signedness peripheral.logged cmds fuel transfer = .done final →
        final.i.toNat = min BSC_FIFO_SIZE cmds_len.toNat := by
  have hput (reached : I2cTransfer (δ × Log))
      (hreached : Commanding signedness memory cmds cmds_len reached)
      (hmore : decide (reached.remaining ≠ 0 ∧ reached.i.toNat < BSC_FIFO_SIZE) = true) :
      Commanding signedness memory cmds cmds_len
        (reached.put signedness peripheral.logged cmds) :=
    hreached.put peripheral (of_decide_eq_true hmore).1 (of_decide_eq_true hmore).2
  constructor
  · refine loop_state_of_invariant _ (fun reached hreached ↦ ?_) hcommanding fuel
    rw [state_whileIteration]
    split_ifs with hmore
    · exact hput reached hreached hmore
    · exact hreached
  · intro final hdone
    refine loop_done_of_invariant (Commanding signedness memory cmds cmds_len)
      (fun final ↦ final.i.toNat = min BSC_FIFO_SIZE cmds_len.toNat)
      (fun reached next hreached hagain ↦ ?_) (fun reached final hreached hexit ↦ ?_) hcommanding
      hdone
    · unfold whileIteration at hagain
      split_ifs at hagain with hmore
      cases hagain
      exact hput reached hreached hmore
    · unfold whileIteration at hexit
      split_ifs at hexit with hmore
      cases hexit
      have hcounts := hreached.counts
      have hfew := hreached.few
      have hend : ¬ (reached.remaining ≠ 0 ∧ reached.i.toNat < BSC_FIFO_SIZE) := by
        simpa using hmore
      rcases not_and_or.mp hend with hnone | hfull
      · have hzero : reached.remaining.toNat = 0 := by
          rw [not_not.mp hnone]
          rfl
        omega
      · omega

end Commanding

/-! ## Storing the answer -/

/-- The answer is being stored. -/
structure Storing (words : List CInt) (memory : ℕ → Byte) (buf : ℕ) (buf_len : CInt)
    (transfer : I2cTransfer (δ × Log)) : Prop where
  counts : transfer.i.toNat + transfer.remaining.toNat = buf_len.toNat
  written : Bcm2835.written .FIFO transfer.device.2 = words
  fetched : Bcm2835.fetched .FIFO transfer.device.2 = bytes transfer.memory buf transfer.i.toNat
  frame : ∀ address, (∀ k < transfer.i.toNat, address ≠ buf + k) →
    transfer.memory address = memory address

section Storing

variable {words : List CInt} (peripheral : Peripheral BscRegister δ) {memory : ℕ → Byte}
  {buf : ℕ} {buf_len : CInt} {transfer : I2cTransfer (δ × Log)}

theorem Storing.orderly {signedness : Signedness} {cmds : ℕ} {cmds_len : CInt}
    (hstoring : Storing (command signedness memory cmds cmds_len) memory buf buf_len transfer) :
    Orderly signedness memory cmds cmds_len buf buf_len transfer where
  written := ⟨_, le_rfl, hstoring.written⟩
  fetched := by
    have hcounts := hstoring.counts
    exact ⟨transfer.i.toNat, by omega, hstoring.fetched, hstoring.frame⟩

theorem Storing.of_quiet (hstoring : Storing words memory buf buf_len transfer)
    {device : δ × Log} (hquiet : Quiet transfer.device device) :
    Storing words memory buf buf_len { transfer with device } :=
  ⟨hstoring.counts, hquiet.written.trans hstoring.written, hquiet.fetched.trans hstoring.fetched,
    hstoring.frame⟩

theorem Storing.get (hstoring : Storing words memory buf buf_len transfer)
    (hmore : transfer.remaining ≠ 0) :
    Storing words memory buf buf_len (transfer.get peripheral.logged buf) := by
  obtain ⟨hnext, hleft⟩ := counts_succ hstoring.counts hmore
  have hcounts := hstoring.counts
  refine ⟨?_, ?_, ?_, ?_⟩
  · change (transfer.i + 1).toNat + (transfer.remaining - 1).toNat = _
    omega
  · refine Eq.trans ?_ hstoring.written
    simp [I2cTransfer.get, Peripheral.logged, Bcm2835.written]
  · change Bcm2835.fetched .FIFO (transfer.device.2 ++ [.readFrom .FIFO _]) =
      bytes (Function.update transfer.memory (buf + transfer.i.toNat) _) buf
        (transfer.i + 1).toNat
    rw [hnext, bytes_update, ← hstoring.fetched]
    simp [Bcm2835.fetched]
  · intro address haddress
    change ∀ k < (transfer.i + 1).toNat, address ≠ buf + k at haddress
    rw [hnext] at haddress
    refine (Function.update_of_ne (haddress transfer.i.toNat (Nat.lt_succ_self _)) _ _).trans ?_
    exact hstoring.frame address fun k hk ↦ haddress k (Nat.lt_succ_of_lt hk)

theorem Storing.drain (hstoring : Storing words memory buf buf_len transfer) (fuel : ℕ) :
    Storing words memory buf buf_len (drain peripheral.logged buf true fuel transfer).state := by
  refine loop_state_of_invariant _ (fun reached hreached ↦ ?_) hstoring fuel
  have hpolled := hreached.of_quiet (quiet_read peripheral reached.device (by decide : .S ≠ _))
  dsimp only
  split_ifs with hnone
  · exact hreached
  · refine hpolled.get peripheral fun hzero ↦ hnone ⟨rfl, hzero⟩
  · exact hpolled

theorem Storing.untilDone (hstoring : Storing words memory buf buf_len transfer) (fuel : ℕ) :
    Storing words memory buf buf_len
      (untilDone peripheral.logged (Bcm2835.drain peripheral.logged buf true) fuel
        transfer).state := by
  refine loop_state_of_invariant _ (fun reached hreached ↦ ?_) hstoring fuel
  have hpolled := hreached.of_quiet (quiet_read peripheral reached.device (by decide : .S ≠ _))
  dsimp only
  split_ifs
  · exact hpolled
  · rw [Outcome.state_again]
    exact hpolled.drain peripheral fuel

/-- The end of a transfer keeps the buffer, and its reason is good only if nothing is missing. -/
theorem Storing.conclude (hstoring : Storing words memory buf buf_len transfer) :
    Storing words memory buf buf_len (conclude peripheral.logged transfer) ∧
      ((conclude peripheral.logged transfer).reason = .REASON_OK →
        (conclude peripheral.logged transfer).remaining = 0) := by
  have hfirst := hstoring.of_quiet (quiet_read peripheral transfer.device (by decide : .S ≠ _))
  have hsecond := hfirst.of_quiet (quiet_read peripheral _ (by decide : .S ≠ _))
  have hend (reached : I2cTransfer (δ × Log))
      (hreached : Storing words memory buf buf_len reached) :
      Storing words memory buf buf_len
        (reached.setBits peripheral.logged Bsc.S.DONE Bsc.S.DONE) :=
    hreached.of_quiet (quiet_peri_set_bits peripheral _ _ _)
  unfold Bcm2835.conclude
  dsimp only
  split_ifs with herr hclkt hmissing
  · exact ⟨hend _ ⟨hfirst.counts, hfirst.written, hfirst.fetched, hfirst.frame⟩, nofun⟩
  · exact ⟨hend _ ⟨hsecond.counts, hsecond.written, hsecond.fetched, hsecond.frame⟩, nofun⟩
  · exact ⟨hend _ ⟨hsecond.counts, hsecond.written, hsecond.fetched, hsecond.frame⟩, nofun⟩
  · exact ⟨hend _ hsecond, fun _ ↦ not_not.mp hmissing⟩

theorem Storing.collect (hstoring : Storing words memory buf buf_len transfer) (fuel : ℕ) :
    Storing words memory buf buf_len (collect peripheral.logged buf true fuel transfer).state ∧
      ∀ after, collect peripheral.logged buf true fuel transfer = .done after →
        after.reason = .REASON_OK →
          Bcm2835.fetched .FIFO after.device.2 = bytes after.memory buf buf_len.toNat := by
  have hdrained : Storing words memory buf buf_len
      ((Bcm2835.untilDone peripheral.logged (Bcm2835.drain peripheral.logged buf true) fuel
        transfer).andThen (Bcm2835.drain peripheral.logged buf true fuel)).state :=
    Outcome.andThen_state_of_invariant _ (hstoring.untilDone peripheral fuel)
      fun reached hreached ↦ hreached.drain peripheral fuel
  constructor
  · exact Outcome.andThen_state_of_invariant _ hdrained fun reached hreached ↦
      (hreached.conclude peripheral).1
  · intro after hdone hreason
    obtain ⟨final, hfinal, hafter⟩ := (Outcome.andThen_eq_done_iff _ _ _).mp hdone
    cases hafter
    rw [hfinal] at hdrained
    change Storing words memory buf buf_len final at hdrained
    obtain ⟨hconcluded, hnone⟩ := Storing.conclude peripheral hdrained
    have hcounts := hconcluded.counts
    have hzero : (0 : CInt).toNat = 0 := rfl
    rw [hnone hreason, hzero, Nat.add_zero] at hcounts
    rw [hconcluded.fetched, hcounts]

end Storing

/-! ## The transfers -/

section Transfers

variable (signedness : Signedness) (peripheral : Peripheral BscRegister δ) (delay : δ → δ)
  (memory : ℕ → Byte) (device : δ) (remaining i : CInt) (reason : I2CReasonCodes)

/-- The answer behind a written command. -/
theorem Commanding.restart {cmds buf : ℕ} {cmds_len buf_len : CInt}
    {transfer : I2cTransfer (δ × Log)}
    (hcommanding : Commanding signedness memory cmds cmds_len transfer)
    (hall : transfer.i.toNat = min BSC_FIFO_SIZE cmds_len.toNat) :
    Storing (command signedness memory cmds cmds_len) memory buf buf_len
      (restart peripheral.logged (Prod.map delay id) buf_len
        { transfer with remaining := buf_len, i := 0 }) := by
  have hquiet := quiet_restart peripheral delay buf_len
    { transfer with remaining := buf_len, i := 0 }
  refine ⟨Nat.zero_add _, hquiet.written.trans ?_, hquiet.fetched.trans hcommanding.fetched,
    fun address _ ↦ congrFun hcommanding.unchanged address⟩
  rw [command, ← hall]
  exact hcommanding.written

theorem Commanding.opening {cmds : ℕ} {cmds_len : CInt} {transfer : I2cTransfer (δ × Log)}
    (hcommanding : Commanding signedness memory cmds cmds_len transfer) (fuel : ℕ) :
    let outcome := (Bcm2835.populate signedness peripheral.logged cmds fuel transfer).andThen
      fun transfer ↦ Bcm2835.awaitStart peripheral.logged fuel
        (transfer.write peripheral.logged .C (Bsc.C.I2CEN ||| Bsc.C.ST))
    Commanding signedness memory cmds cmds_len outcome.state ∧
      ∀ final, outcome = .done final → final.i.toNat = min BSC_FIFO_SIZE cmds_len.toNat := by
  obtain ⟨hpopulated, hall⟩ := hcommanding.populate peripheral fuel
  have hawaited (reached : I2cTransfer (δ × Log))
      (hreached : Commanding signedness memory cmds cmds_len reached) :
      Commanding signedness memory cmds cmds_len
          (Bcm2835.awaitStart peripheral.logged fuel
            (reached.write peripheral.logged .C (Bsc.C.I2CEN ||| Bsc.C.ST))).state ∧
        (Bcm2835.awaitStart peripheral.logged fuel
          (reached.write peripheral.logged .C (Bsc.C.I2CEN ||| Bsc.C.ST))).state.i =
          reached.i := by
    refine awaitStart_of_quiet peripheral (fun transfer ↦
      Commanding signedness memory cmds cmds_len transfer ∧ transfer.i = reached.i)
      (fun transfer device hkept hquiet ↦ ?_) ?_ fuel
    · exact ⟨hkept.1.of_quiet hquiet, hkept.2⟩
    · exact ⟨hreached.of_quiet (quiet_write peripheral reached.device (by decide) _), rfl⟩
  constructor
  · exact Outcome.andThen_state_of_invariant _ hpopulated fun reached hreached ↦
      (hawaited reached hreached).1
  · intro final hdone
    obtain ⟨filled, hfilled, hfinal⟩ := (Outcome.andThen_eq_done_iff _ _ _).mp hdone
    rw [hfilled] at hpopulated
    have hindex := (hawaited filled hpopulated).2
    rw [hfinal] at hindex
    rw [show final.i = filled.i from hindex]
    exact hall filled hfilled

/-- At every point of a run nothing is out of order; a run that returns has written the first
sixteen bytes of the command at most, and with the reason OK it has stored the whole answer. -/
theorem i2c_write_read_rs_orderly (cmds : ℕ) (cmds_len : CInt) (buf : ℕ) (buf_len : CInt)
    (fuel : ℕ) :
    Orderly signedness memory cmds cmds_len buf buf_len
        (i2c_write_read_rs signedness peripheral.logged (Prod.map delay id) cmds cmds_len buf
          buf_len fuel ⟨(device, []), memory, remaining, i, reason⟩).state ∧
      ∀ after, i2c_write_read_rs signedness peripheral.logged (Prod.map delay id) cmds cmds_len buf
          buf_len fuel ⟨(device, []), memory, remaining, i, reason⟩ = .done after →
        written .FIFO after.device.2 = command signedness memory cmds cmds_len ∧
        (after.reason = .REASON_OK →
          fetched .FIFO after.device.2 = bytes after.memory buf buf_len.toNat) := by
  have hprepared : Commanding signedness memory cmds cmds_len
      (prepare peripheral.logged cmds_len cmds_len
        (⟨(device, []), memory, remaining, i, reason⟩ : I2cTransfer (δ × Log))) := by
    have hquiet := quiet_prepare peripheral cmds_len cmds_len
      (⟨(device, []), memory, remaining, i, reason⟩ : I2cTransfer (δ × Log))
    exact ⟨rfl, Nat.zero_add _, Nat.zero_le _, hquiet.written, hquiet.fetched⟩
  obtain ⟨hopened, hall⟩ := hprepared.opening signedness peripheral memory fuel
  have hrestarted (final : I2cTransfer (δ × Log))
      (hdone : ((populate signedness peripheral.logged cmds fuel (prepare peripheral.logged cmds_len
          cmds_len ⟨(device, []), memory, remaining, i, reason⟩)).andThen fun transfer ↦
        awaitStart peripheral.logged fuel
          (transfer.write peripheral.logged .C (Bsc.C.I2CEN ||| Bsc.C.ST))) = .done final) :
      Storing (command signedness memory cmds cmds_len) memory buf buf_len
        (restart peripheral.logged (Prod.map delay id) buf_len
          { final with remaining := buf_len, i := 0 }) := by
    rw [hdone] at hopened
    exact Commanding.restart signedness peripheral delay memory hopened (hall final hdone)
  constructor
  · refine Outcome.andThen_state_of_done _ ?_ fun started hstarted ↦ ?_
    · exact Outcome.andThen_state_of_done _ hopened.orderly fun final hdone ↦
        (hrestarted final hdone).orderly
    · obtain ⟨final, hdone, hstart⟩ := (Outcome.andThen_eq_done_iff _ _ _).mp hstarted
      cases hstart
      exact ((hrestarted final hdone).collect peripheral fuel).1.orderly
  · intro after hafter
    obtain ⟨started, hstarted, hcollect⟩ := (Outcome.andThen_eq_done_iff _ _ _).mp hafter
    obtain ⟨final, hdone, hstart⟩ := (Outcome.andThen_eq_done_iff _ _ _).mp hstarted
    cases hstart
    obtain ⟨hstored, hok⟩ := (hrestarted final hdone).collect peripheral fuel
    rw [hcollect] at hstored
    exact ⟨hstored.written, hok after hcollect⟩

/-- The same holds for the address of a register, a command of one byte. -/
theorem i2c_read_register_rs_orderly (regaddr buf : ℕ) (len : CInt) (fuel : ℕ) :
    Orderly signedness memory regaddr 1 buf len
        (i2c_read_register_rs signedness peripheral.logged (Prod.map delay id) regaddr buf len fuel
          ⟨(device, []), memory, remaining, i, reason⟩).state ∧
      ∀ after, i2c_read_register_rs signedness peripheral.logged (Prod.map delay id) regaddr buf len
          fuel ⟨(device, []), memory, remaining, i, reason⟩ = .done after →
        written .FIFO after.device.2 = command signedness memory regaddr 1 ∧
        (after.reason = .REASON_OK →
          fetched .FIFO after.device.2 = bytes after.memory buf len.toNat) := by
  let start : I2cTransfer (δ × Log) := ⟨(device, []), memory, remaining, i, reason⟩
  let addressed : I2cTransfer (δ × Log) :=
    ((((prepare peripheral.logged len 1 start).write peripheral.logged .C Bsc.C.I2CEN).write
      peripheral.logged .FIFO (promote signedness (memory regaddr))).write
        peripheral.logged .C (Bsc.C.I2CEN ||| Bsc.C.ST))
  have haddressed : Storing (command signedness memory regaddr 1) memory buf len addressed := by
    have hquiet := (quiet_prepare peripheral len 1 start).trans
      (quiet_write peripheral _ (by decide : .C ≠ BscRegister.FIFO) Bsc.C.I2CEN)
    have hlast := quiet_write peripheral
      (((prepare peripheral.logged len 1 start).write peripheral.logged .C Bsc.C.I2CEN).write
        peripheral.logged .FIFO (promote signedness (memory regaddr))).device
      (by decide : .C ≠ BscRegister.FIFO) (Bsc.C.I2CEN ||| Bsc.C.ST)
    refine ⟨Nat.zero_add _, hlast.written.trans ?_, hlast.fetched.trans ?_, fun _ _ ↦ rfl⟩
    · change written .FIFO (_ ++ [Access.writeTo BscRegister.FIFO _]) = _
      rw [written, List.filterMap_append]
      exact congrArg (· ++ [promote signedness (memory regaddr)]) hquiet.written
    · change fetched .FIFO (_ ++ [Access.writeTo BscRegister.FIFO _]) = _
      rw [fetched, List.filterMap_append]
      exact (List.append_nil _).trans hquiet.fetched
  have hawaited : Storing (command signedness memory regaddr 1) memory buf len
      (awaitStart peripheral.logged fuel addressed).state :=
    awaitStart_of_quiet peripheral _ (fun _ _ hkept hquiet ↦ hkept.of_quiet hquiet) haddressed
      fuel
  have hrestarted (final : I2cTransfer (δ × Log))
      (hfinal : Storing (command signedness memory regaddr 1) memory buf len final) :
      Storing (command signedness memory regaddr 1) memory buf len
        (restart peripheral.logged (Prod.map delay id) len final) :=
    hfinal.of_quiet (quiet_restart peripheral delay len final)
  constructor
  · refine Storing.orderly (Outcome.andThen_state_of_invariant _
      (Outcome.andThen_state_of_invariant _ hawaited hrestarted) fun reached hreached ↦ ?_)
    exact (hreached.collect peripheral fuel).1
  · intro after hafter
    obtain ⟨started, hstarted, hcollect⟩ := (Outcome.andThen_eq_done_iff _ _ _).mp hafter
    obtain ⟨final, hdone, hstart⟩ := (Outcome.andThen_eq_done_iff _ _ _).mp hstarted
    cases hstart
    change awaitStart peripheral.logged fuel addressed = .done final at hdone
    rw [hdone] at hawaited
    obtain ⟨hstored, hok⟩ := (hrestarted final hawaited).collect peripheral fuel
    rw [hcollect] at hstored
    exact ⟨hstored.written, hok after hcollect⟩

end Transfers

/-! ## The loop without a comparison -/

/-- A device that always has another byte. -/
def endless : Peripheral BscRegister Unit :=
  ⟨fun _ device ↦ (Bsc.S.RXD, device), fun _ _ device ↦ device⟩

theorem get_endless_iterate (buf : ℕ) {start : I2cTransfer Unit} (hstart : start.i = 0)
    {count : ℕ} (hcount : count < 2 ^ 32) :
    ((I2cTransfer.get endless buf)^[count] start).i.toNat = count ∧
      ∀ k < count, ((I2cTransfer.get endless buf)^[count] start).memory (buf + k) =
        toChar Bsc.S.RXD := by
  induction count with
  | zero =>
    refine ⟨?_, fun k hk ↦ absurd hk (Nat.not_lt_zero k)⟩
    rw [Function.iterate_zero_apply, hstart]
    rfl
  | succ count ih =>
    obtain ⟨hi, hbytes⟩ := ih (by omega)
    rw [Function.iterate_succ_apply']
    generalize (I2cTransfer.get endless buf)^[count] start = reached at hi hbytes ⊢
    constructor
    · have hone : (1 : CInt).toNat = 1 := rfl
      change (reached.i + 1).toNat = count + 1
      rw [BitVec.toNat_add, hone, hi, Nat.mod_eq_of_lt hcount]
    · intro k hk
      change Function.update reached.memory (buf + reached.i.toNat) _ (buf + k) = _
      rw [hi]
      rcases Nat.lt_succ_iff_lt_or_eq.mp hk with hless | rfl
      · rw [Function.update_of_ne (by omega)]
        exact hbytes k hless
      · exact Function.update_self _ _ _

/-- On such a device `bcm2835_i2c_read` stores a byte for every round it is given, whatever the
length of its buffer is: this is what the missing comparison in its loop allows. -/
theorem i2c_read_endless (buf : ℕ) (len : CInt) (before : I2cTransfer Unit) {fuel : ℕ}
    (hpos : 0 < fuel) (hfuel : fuel < 2 ^ 32) :
    ∀ k < fuel, (i2c_read endless buf len fuel before).state.memory (buf + k) =
      toChar Bsc.S.RXD := by
  obtain ⟨rest, rfl⟩ : ∃ rest, fuel = rest + 1 := ⟨fuel - 1, by omega⟩
  let start := (prepare endless len len before).write endless .C
    (Bsc.C.I2CEN ||| Bsc.C.ST ||| Bsc.C.READ)
  have hdata : isSet Bsc.S.RXD Bsc.S.RXD := by decide
  have hbusy : ¬ isSet Bsc.S.RXD Bsc.S.DONE := by decide
  have hdrain : drain endless buf false (rest + 1) start =
      .running ((I2cTransfer.get endless buf)^[rest + 1] start) := by
    refine loop_add_iterate (I2cTransfer.get endless buf) (rest + 1) start (fun k _ ↦ ?_) 0
    rw [Function.iterate_succ_apply']
    exact (if_neg (by simp)).trans (if_pos hdata)
  have huntil : untilDone endless (drain endless buf false) (rest + 1) start =
      .running ((I2cTransfer.get endless buf)^[rest + 1] start) := by
    refine loop_succ_running ?_ rest
    exact (if_neg hbusy).trans (congrArg Outcome.again hdrain)
  have hread : i2c_read endless buf len (rest + 1) before =
      .running ((I2cTransfer.get endless buf)^[rest + 1] start) := by
    unfold i2c_read collect
    rw [huntil]
    rfl
  rw [hread]
  exact (get_endless_iterate buf rfl hfuel).2

end PiFunk.Bcm2835
