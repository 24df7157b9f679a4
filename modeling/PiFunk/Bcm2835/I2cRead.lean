import PiFunk.Bcm2835.I2cWrite

/-!
# Reading from a slave

On the bus `bcm2835_i2c_read` always ends, and it is one transfer from the slave: the bytes that the
slave delivers are in the buffer, in order, and the reason tells which way the transfer ended.  The
loop that empties the FIFO does not look at how many bytes are left.  It need not do so, because the
controller never receives more than the data length.
-/

namespace PiFunk.Bcm2835

open Display FuelLoop Acknowledge Schedule

variable {σ : Type*}

/-! ## The outlook of a transfer -/

/-- What will have become of the transfer, when these bytes have been stored. -/
def I2cBus.prospect (bus : I2cBus σ) (stored : List Byte) (bsc : Bsc σ) :
    List Byte × Option Refusal × σ :=
  match bsc.phase with
  | .idle => (stored ++ bsc.fifo, bsc.verdict, bsc.slave)
  | .selecting =>
    let rest := bus.requested bsc.slave bsc.left
    (stored ++ bsc.fifo ++ rest.1, rest.2)
  | .moving =>
    let rest := fetch bus.deliver bsc.slave bsc.left
    (stored ++ bsc.fifo ++ rest.1, rest.2)

/-- A transfer of so many bytes with a known outcome. -/
structure Reading (bus : I2cBus σ) (outcome : List Byte × Option Refusal × σ) (total : ℕ)
    (stored : List Byte) (bsc : Bsc σ) : Prop where
  reading : bsc.reading = true
  prospect : bus.prospect stored bsc = outcome
  ended : bsc.phase = .idle → bsc.done = true
  underway : bsc.phase ≠ .idle → bsc.done = false ∧ bsc.err = false ∧ bsc.clkt = false
  counts : bsc.phase ≠ .idle → stored.length + bsc.fifo.length + bsc.left = total
  complete : bsc.phase = .idle → bsc.verdict = none → stored.length + bsc.fifo.length = total
  bounded : stored.length + bsc.fifo.length ≤ total

section Reading

variable {bus : I2cBus σ} {outcome : List Byte × Option Refusal × σ} {total : ℕ}
  {stored : List Byte} {bsc : Bsc σ}

theorem Reading.abort (hreading : Reading bus outcome total stored bsc)
    (hactive : bsc.phase ≠ .idle) {reason : Refusal}
    (houtcome : outcome = (stored ++ bsc.fifo, some reason, bsc.slave)) :
    Reading bus outcome total stored (bsc.abort reason) := by
  obtain ⟨-, herr, hclkt⟩ := hreading.underway hactive
  have hverdict := verdict_abort reason herr hclkt
  refine ⟨hreading.reading, ?_, fun _ ↦ rfl, fun hbusy ↦ absurd rfl hbusy,
    fun hbusy ↦ absurd rfl hbusy, ?_, hreading.bounded⟩
  · change (stored ++ bsc.fifo, (bsc.abort reason).verdict, bsc.slave) = outcome
    rw [hverdict, houtcome]
  · intro _ hnone
    rw [hverdict] at hnone
    cases hnone

/-- The step lemma: a step moves the transfer on and leaves its outlook. -/
theorem Reading.step (hreading : Reading bus outcome total stored bsc) :
    Reading bus outcome total stored (bus.step bsc) := by
  cases hphase : bsc.phase with
  | idle =>
    rw [step_idle bus hphase]
    exact hreading
  | selecting =>
    have hactive : bsc.phase ≠ .idle := by
      rw [hphase]
      decide
    have hprospect := hreading.prospect
    unfold I2cBus.prospect at hprospect
    rw [hphase] at hprospect
    unfold I2cBus.step
    simp only [hphase, hreading.reading]
    cases hselect : bus.select bsc.slave true with
    | error reason =>
      refine hreading.abort hactive ?_
      rw [← hprospect]
      simp only [I2cBus.requested, hselect, List.append_nil]
    | ok slave =>
      dsimp only
      refine ⟨rfl, ?_, nofun, fun _ ↦ hreading.underway hactive,
        fun _ ↦ hreading.counts hactive, nofun, hreading.bounded⟩
      rw [← hprospect]
      simp only [I2cBus.requested, I2cBus.prospect, hselect]
  | moving =>
    have hactive : bsc.phase ≠ .idle := by
      rw [hphase]
      decide
    have hprospect := hreading.prospect
    have hcounts := hreading.counts hactive
    unfold I2cBus.prospect at hprospect
    rw [hphase] at hprospect
    unfold I2cBus.step
    simp only [hphase, hreading.reading, if_true]
    split_ifs with hleft
    · -- the data length has been moved
      obtain ⟨-, herr, hclkt⟩ := hreading.underway hactive
      rw [hleft] at hprospect hcounts
      refine ⟨hreading.reading, ?_, fun _ ↦ rfl, fun hbusy ↦ absurd rfl hbusy,
        fun hbusy ↦ absurd rfl hbusy, fun _ _ ↦ hcounts, hreading.bounded⟩
      rw [← hprospect]
      simp [I2cBus.prospect, Bsc.finish, Bsc.verdict, herr, hclkt, fetch]
    · unfold I2cBus.receiveByte
      obtain ⟨left, hsucc⟩ := Nat.exists_eq_succ_of_ne_zero hleft
      rw [hsucc] at hprospect
      split_ifs with hroom
      · cases hdeliver : bus.deliver bsc.slave with
        | error reason =>
          refine hreading.abort hactive ?_
          rw [← hprospect, fetch_succ_error hdeliver]
          simp only [List.append_nil]
        | ok delivered =>
          obtain ⟨byte, slave⟩ := delivered
          dsimp only at hprospect ⊢
          refine ⟨hreading.reading, ?_, fun hidle ↦ absurd hidle hactive,
            fun _ ↦ hreading.underway hactive, fun _ ↦ ?_, fun hidle ↦ absurd hidle hactive, ?_⟩
          · rw [← hprospect, fetch_succ_ok hdeliver]
            simp only [I2cBus.prospect, hphase, hsucc, Nat.succ_eq_add_one, Nat.add_sub_cancel,
              List.append_assoc, List.singleton_append]
          · dsimp only
            rw [List.length_append, List.length_singleton]
            omega
          · dsimp only
            rw [List.length_append, List.length_singleton]
            omega
      · exact hreading

theorem Reading.elapse (hreading : Reading bus outcome total stored bsc) :
    Reading bus outcome total stored (bus.elapse bsc) :=
  elapse_of_invariant bus (fun _ ↦ Reading.step)
    (fun _ _ h ↦ ⟨h.reading, h.prospect, h.ended, h.underway, h.counts, h.complete, h.bounded⟩)
    hreading

theorem Reading.pop {byte : Byte} {fifo : List Byte}
    (hreading : Reading bus outcome total stored bsc) (hfifo : bsc.fifo = byte :: fifo) :
    Reading bus outcome total (stored ++ [byte]) { bsc with fifo } := by
  have hlength : (stored ++ [byte]).length + fifo.length = stored.length + bsc.fifo.length := by
    rw [hfifo]
    simp only [List.length_append, List.length_cons, List.length_nil]
    omega
  have hsame : stored ++ [byte] ++ fifo = stored ++ bsc.fifo := by
    rw [hfifo, List.append_assoc, List.singleton_append]
  refine ⟨hreading.reading, ?_, hreading.ended, hreading.underway, ?_, ?_, ?_⟩
  · rw [← hreading.prospect]
    unfold I2cBus.prospect
    simp only [hsame]
    rfl
  · intro hbusy
    exact (congrArg (· + bsc.left) hlength).trans (hreading.counts hbusy)
  · intro hidle hnone
    exact hlength.trans (hreading.complete hidle hnone)
  · exact hlength.le.trans hreading.bounded

end Reading

/-- While it receives, the controller does not empty the FIFO. -/
theorem le_elapse_fifo (bus : I2cBus σ) {bsc : Bsc σ} (hreading : bsc.reading = true) :
    bsc.fifo.length ≤ (bus.elapse bsc).fifo.length := by
  have hstep (reached : Bsc σ)
      (hreached : reached.reading = true ∧ bsc.fifo.length ≤ reached.fifo.length) :
      (bus.step reached).reading = true ∧ bsc.fifo.length ≤ (bus.step reached).fifo.length := by
    obtain ⟨hreceives, hle⟩ := hreached
    unfold I2cBus.step
    simp only [hreceives, if_true]
    unfold I2cBus.receiveByte Bsc.finish Bsc.abort
    repeat' split
    all_goals simp_all
    all_goals omega
  exact (elapse_of_invariant bus hstep (fun _ _ h ↦ h) ⟨hreading, le_rfl⟩).2

/-! ## The loops -/

/-- The first bytes have been stored, and nothing else has changed. -/
structure Gets (bus : I2cBus σ) (outcome : List Byte × Option Refusal × σ) (total : ℕ)
    (memory : ℕ → Byte) (buf : ℕ) (len : CInt) (transfer : I2cTransfer (Bsc σ)) : Prop where
  frame : ∀ address, (∀ k < transfer.i.toNat, address ≠ buf + k) →
    transfer.memory address = memory address
  counts : transfer.i.toNat + transfer.remaining.toNat = len.toNat
  reading : Reading bus outcome total (bytes transfer.memory buf transfer.i.toNat) transfer.device
  reason : transfer.reason = .REASON_OK

section Loops

variable {bus : I2cBus σ} {outcome : List Byte × Option Refusal × σ} {total : ℕ}
  {memory : ℕ → Byte} {buf : ℕ} {len : CInt} {transfer : I2cTransfer (Bsc σ)}

theorem Gets.polled (hgets : Gets bus outcome total memory buf len transfer) :
    Gets bus outcome total memory buf len (transfer.polled bus) :=
  ⟨hgets.frame, hgets.counts, hgets.reading.elapse, hgets.reason⟩

theorem Gets.remaining_ne_zero (hgets : Gets bus outcome total memory buf len transfer)
    (htotal : total ≤ len.toNat) (hdata : transfer.device.fifo ≠ []) : transfer.remaining ≠ 0 := by
  intro hnone
  have hbounded := hgets.reading.bounded
  have hcounts := hgets.counts
  have hpositive := List.length_pos_iff.mpr hdata
  have hzero : (0 : CInt).toNat = 0 := rfl
  rw [hnone] at hcounts
  rw [length_bytes] at hbounded
  omega

theorem Gets.get (hgets : Gets bus outcome total memory buf len transfer)
    (htotal : total ≤ len.toNat) (hdata : transfer.device.fifo ≠ []) :
    Gets bus outcome total memory buf len (transfer.get bus.bsc buf) ∧
      (transfer.get bus.bsc buf).device.pending < transfer.device.pending := by
  obtain ⟨hnext, hleft⟩ := counts_succ hgets.counts (hgets.remaining_ne_zero htotal hdata)
  have hcounts := hgets.counts
  have hdata' : (bus.elapse transfer.device).fifo ≠ [] := by
    have hlengths := le_elapse_fifo bus hgets.reading.reading
    have hpositive := List.length_pos_iff.mpr hdata
    exact List.length_pos_iff.mp (by omega)
  obtain ⟨byte, fifo, hfifo⟩ := List.exists_cons_of_ne_nil hdata'
  have hread : bus.bsc.read .FIFO transfer.device =
      (byte.setWidth 32, { bus.elapse transfer.device with fifo }) := by
    change bus.readRegister .FIFO transfer.device = _
    unfold I2cBus.readRegister
    simp only [hfifo]
  have hbyte : toChar (byte.setWidth 32) = byte := toChar_promote .unsigned byte
  have hpending := pending_elapse_le bus transfer.device
  unfold I2cTransfer.get
  rw [hread]
  simp only [hbyte]
  refine ⟨⟨?_, ?_, ?_, hgets.reason⟩, ?_⟩
  · intro address haddress
    dsimp only at haddress ⊢
    rw [hnext] at haddress
    refine (Function.update_of_ne (haddress transfer.i.toNat (Nat.lt_succ_self _)) _ _).trans ?_
    exact hgets.frame address fun k hk ↦ haddress k (Nat.lt_succ_of_lt hk)
  · dsimp only
    omega
  · dsimp only
    rw [hnext, bytes_update]
    exact hgets.reading.elapse.pop hfifo
  · refine lt_of_lt_of_le ?_ hpending
    simp only [Bsc.pending, hfifo, List.length_cons]
    omega

/-- Where the loop that reads ends: with an empty FIFO. -/
structure Drained (bus : I2cBus σ) (outcome : List Byte × Option Refusal × σ) (total : ℕ)
    (memory : ℕ → Byte) (buf : ℕ) (len : CInt) (start final : I2cTransfer (Bsc σ)) : Prop where
  gets : Gets bus outcome total memory buf len final
  empty : final.device.fifo = []
  idle : start.device.phase = .idle → final.device.phase = .idle
  progress : final.device.pending < start.device.pending ∨ final = start ∨ final = start.polled bus

/-- The step lemma of the inner loop, with the comparison of `remaining` or without it. -/
theorem exists_drain (guarded : Bool) (htotal : total ≤ len.toNat) {start : I2cTransfer (Bsc σ)}
    (hstart : Gets bus outcome total memory buf len start) :
    ∃ final, Settles (fun fuel ↦ drain bus.bsc buf guarded fuel start) final ∧
      Drained bus outcome total memory buf len start final := by
  let round : I2cTransfer (Bsc σ) → Iteration Empty (I2cTransfer (Bsc σ)) := fun transfer ↦
    if guarded ∧ transfer.remaining = 0 then .exit transfer
    else if isSet (bus.elapse transfer.device).status Bsc.S.RXD then
      .again ((transfer.polled bus).get bus.bsc buf)
    else .exit (transfer.polled bus)
  have hidle (reached : I2cTransfer (Bsc σ)) (hreached : reached.device.phase = .idle) :
      (reached.polled bus).device.phase = .idle := by
    change (bus.elapse reached.device).phase = .idle
    rw [bsc_elapse_idle bus hreached]
    exact hreached
  have hstep (reached : I2cTransfer (Bsc σ))
      (hreached : Gets bus outcome total memory buf len reached ∧
        (start.device.phase = .idle → reached.device.phase = .idle) ∧
        (reached = start ∨ reached.device.pending < start.device.pending)) :
      (∃ final, Steps (fun _ ↦ round) reached (.exit final) ∧
          Drained bus outcome total memory buf len start final) ∨
        ∃ next, Steps (fun _ ↦ round) reached (.again next) ∧
          (Gets bus outcome total memory buf len next ∧
            (start.device.phase = .idle → next.device.phase = .idle) ∧
            (next = start ∨ next.device.pending < start.device.pending)) ∧
          next.device.pending < reached.device.pending := by
    obtain ⟨hgets, hrest, hprogress⟩ := hreached
    have hpolled := hgets.polled
    have hpending : (reached.polled bus).device.pending ≤ reached.device.pending :=
      pending_elapse_le bus reached.device
    by_cases hnone : guarded = true ∧ reached.remaining = 0
    · refine .inl ⟨reached, .of_eq fun _ ↦ if_pos hnone, hgets, ?_, hrest,
        hprogress.symm.imp_right .inl⟩
      by_contra hdata
      exact hgets.remaining_ne_zero htotal hdata hnone.2
    · by_cases hdata : (reached.polled bus).device.fifo ≠ []
      · obtain ⟨hnext, hless⟩ := hpolled.get htotal hdata
        have hwork := hless.trans_le hpending
        refine .inr ⟨_, .of_eq fun _ ↦ (if_neg hnone).trans
          (if_pos ((isSet_bsc_rxd_iff _).mpr hdata)), ⟨hnext, ?_, .inr ?_⟩, hwork⟩
        · intro hstill
          have hreached := hidle _ (hidle _ (hrest hstill))
          change (bus.readRegister .FIFO (reached.polled bus).device).2.phase = .idle
          unfold I2cBus.readRegister
          dsimp only
          split <;> exact hreached
        · rcases hprogress with rfl | hbefore
          · exact hwork
          · exact hwork.trans hbefore
      · refine .inl ⟨_, .of_eq fun _ ↦ (if_neg hnone).trans
          (if_neg (mt (isSet_bsc_rxd_iff _).mp hdata)), hpolled, not_not.mp hdata,
          fun hstill ↦ hidle _ (hrest hstill), ?_⟩
        rcases hprogress with rfl | hbefore
        · exact .inr (.inr rfl)
        · exact .inl (hpending.trans_lt hbefore)
  obtain ⟨final, hsettles, hdrained⟩ :=
    exists_loopSettles _ _ Nat.lt_wfRel.wf (fun t : I2cTransfer (Bsc σ) ↦ t.device.pending) hstep
      ⟨hstart, id, .inl rfl⟩
  exact ⟨final, hsettles.settles, hdrained⟩

theorem Gets.canMove_of_empty (hgets : Gets bus outcome total memory buf len transfer)
    (hempty : transfer.device.fifo = []) : transfer.device.CanMove := by
  intro _ _
  rw [if_pos hgets.reading.reading, hempty]
  decide

/-- The run lemma: the controller gets done. -/
theorem exists_untilDone_drain (guarded : Bool) (htotal : total ≤ len.toNat)
    (hgets : Gets bus outcome total memory buf len transfer)
    (hempty : transfer.device.fifo = []) :
    ∃ final, Settles (fun fuel ↦ untilDone bus.bsc (drain bus.bsc buf guarded) fuel transfer)
        final ∧
      Gets bus outcome total memory buf len final ∧ final.device.phase = .idle := by
  let round : ℕ → I2cTransfer (Bsc σ) → Iteration Empty (I2cTransfer (Bsc σ)) :=
    fun fuel transfer ↦
      if isSet (bus.elapse transfer.device).status Bsc.S.DONE then .exit (transfer.polled bus)
      else (drain bus.bsc buf guarded fuel (transfer.polled bus)).again
  have hstep (reached : I2cTransfer (Bsc σ))
      (hreached : Gets bus outcome total memory buf len reached ∧ reached.device.fifo = []) :
      (∃ final, Steps round reached (.exit final) ∧
          Gets bus outcome total memory buf len final ∧ final.device.phase = .idle) ∨
        ∃ next, Steps round reached (.again next) ∧
          (Gets bus outcome total memory buf len next ∧ next.device.fifo = []) ∧
          Prod.Lex (· < ·) (· < ·) (bus.outstanding 0 next.device)
            (bus.outstanding 0 reached.device) := by
    obtain ⟨hgets, hempty⟩ := hreached
    have hpolled := hgets.polled
    by_cases hdone : (bus.elapse reached.device).done = true
    · refine .inl ⟨_, .of_eq fun _ ↦ if_pos ((isSet_bsc_done_iff _).mpr hdone), hpolled, ?_⟩
      by_contra hactive
      exact absurd hdone (ne_true_of_eq_false (hpolled.reading.underway hactive).1)
    · have hbusy : (bus.elapse reached.device).phase ≠ .idle :=
        fun hidle ↦ hdone (hpolled.reading.ended hidle)
      have hactive : reached.device.phase ≠ .idle := by
        intro hidle
        rw [bsc_elapse_idle bus hidle] at hbusy
        exact hbusy hidle
      have hless := outstanding_elapse_lt bus hactive (hgets.canMove_of_empty hempty) 0
      obtain ⟨next, hdrain, hdrained⟩ := exists_drain guarded htotal hpolled
      refine .inr ⟨next, hdrain.steps fun _ ↦ if_neg (mt (isSet_bsc_done_iff _).mp hdone),
        ⟨hdrained.gets, hdrained.empty⟩, ?_⟩
      rcases hdrained.progress with hwork | rfl | rfl
      · refine Prod.Lex.left _ _ (Nat.add_lt_add_left (hwork.trans_le ?_) _)
        exact pending_elapse_le bus reached.device
      · exact hless
      · have hlength := le_elapse_fifo bus hpolled.reading.reading
        have hstill : (bus.elapse (reached.polled bus).device).fifo = [] := hdrained.empty
        rw [hstill] at hlength
        have hnothing := List.eq_nil_of_length_eq_zero (Nat.le_zero.mp hlength)
        exact trans_of (Prod.Lex (· < ·) (· < ·))
          (outstanding_elapse_lt bus hbusy (hpolled.canMove_of_empty hnothing) 0) hless
  obtain ⟨final, hsettles, hfinal⟩ := exists_loopSettles _ _
    (Nat.lt_wfRel.wf.prod_lex Nat.lt_wfRel.wf)
    (fun t : I2cTransfer (Bsc σ) ↦ bus.outstanding 0 t.device) hstep ⟨hgets, hempty⟩
  exact ⟨final, hsettles.settles, hfinal⟩

end Loops

/-! ## The whole transfer -/

section Read

variable (bus : I2cBus σ) {len : CInt} {before transfer : I2cTransfer (Bsc σ)}

theorem Ready.gets (hready : Ready len len before transfer) (buf : ℕ) :
    Gets bus (bus.requested before.device.slave (len.toNat % 2 ^ 16)) (len.toNat % 2 ^ 16)
        before.memory buf len
        (transfer.write bus.bsc .C (Bsc.C.I2CEN ||| Bsc.C.ST ||| Bsc.C.READ)) ∧
      (transfer.write bus.bsc .C (Bsc.C.I2CEN ||| Bsc.C.ST ||| Bsc.C.READ)).device.fifo = [] := by
  have hwrite : bus.bsc.write .C (Bsc.C.I2CEN ||| Bsc.C.ST ||| Bsc.C.READ) transfer.device =
      { transfer.device with
        enabled := true
        reading := true
        phase := .selecting
        left := transfer.device.dlen
        accesses := transfer.device.accesses + 1 } := by
    change bus.writeRegister .C _ transfer.device = _
    unfold I2cBus.writeRegister
    rw [bsc_elapse_idle bus hready.idle]
    exact if_pos ⟨hready.idle, by decide, by decide⟩
  have hi : transfer.i.toNat = 0 := by
    rw [hready.i]
    rfl
  unfold I2cTransfer.write
  rw [hwrite]
  refine ⟨⟨fun address _ ↦ congrFun hready.memory address, ?_, ⟨rfl, ?_, nofun,
    fun _ ↦ ⟨hready.done, hready.err, hready.clkt⟩, fun _ ↦ ?_, nofun, ?_⟩, hready.reason⟩,
    hready.fifo⟩
  · dsimp only
    rw [hi, hready.remaining, Nat.zero_add]
  · dsimp only
    rw [hi]
    simp only [I2cBus.prospect, hready.fifo, hready.slave, hready.dlen]
    rfl
  · dsimp only
    rw [hi, hready.fifo, hready.dlen]
    exact Nat.zero_add _
  · dsimp only
    rw [hi, hready.fifo]
    exact Nat.zero_le _

structure ReadBack (buf : ℕ) (len : CInt) (before after : I2cTransfer (Bsc σ)) : Prop where
  received : bytes after.memory buf
      (bus.requested before.device.slave (len.toNat % 2 ^ 16)).1.length =
    (bus.requested before.device.slave (len.toNat % 2 ^ 16)).1
  slave : after.device.slave = (bus.requested before.device.slave (len.toNat % 2 ^ 16)).2.2
  reason : after.reason = reasonOf
    (bus.requested before.device.slave (len.toNat % 2 ^ 16)).2.1 (len.toNat / 2 ^ 16)
  frame : ∀ address,
    (∀ k < (bus.requested before.device.slave (len.toNat % 2 ^ 16)).1.length,
      address ≠ buf + k) → after.memory address = before.memory address
  idle : after.device.phase = .idle

/-- On every bus a read ends, and it is one transfer from the slave. -/
theorem i2c_read_readBack (buf : ℕ) (len : CInt) (hidle : before.device.phase = .idle) :
    ∃ after, Settles (fun fuel ↦ i2c_read bus.bsc buf len fuel before) after ∧
      ReadBack bus buf len before after := by
  have htotal : len.toNat % 2 ^ 16 ≤ len.toNat := Nat.mod_le _ _
  obtain ⟨hstarted, hempty⟩ := (prepare_ready bus len len hidle).gets bus buf
  obtain ⟨finished, hdone, hfinished, hover⟩ :=
    exists_untilDone_drain false htotal hstarted hempty
  obtain ⟨final, hrest, hfinal⟩ := exists_drain true htotal hfinished
  have hstill := hfinal.idle hover
  have hconcluded := conclude_concluded bus hstill hfinal.gets.reason
  have hprospect := hfinal.gets.reading.prospect
  unfold I2cBus.prospect at hprospect
  rw [hstill, hfinal.empty, List.append_nil] at hprospect
  dsimp only at hprospect
  refine ⟨conclude bus.bsc final, (hdone.andThen hrest).andThen (.of_done fun _ ↦ rfl), ?_, ?_, ?_,
    ?_, hconcluded.idle⟩
  · rw [hconcluded.memory, ← hprospect, length_bytes]
  · rw [hconcluded.slave, ← hprospect]
  · rw [hconcluded.reason, ← hprospect]
    cases hverdict : final.device.verdict with
    | some reason => cases reason <;> rfl
    | none =>
      have hlengths := hfinal.gets.reading.complete hstill hverdict
      have hcounts := hfinal.gets.counts
      rw [length_bytes, hfinal.empty, List.length_nil] at hlengths
      have hsame : final.remaining.toNat ≠ 0 ↔ len.toNat / 2 ^ 16 ≠ 0 := by
        omega
      simp only [reasonOf, hsame]
  · intro address haddress
    rw [hconcluded.memory]
    rw [← hprospect, length_bytes] at haddress
    exact hfinal.gets.frame address haddress

/-- Four bytes from a slave whose clock stops at the third one. -/
def tired : I2cBus ℕ where
  select sent _ := .ok sent
  accept sent _ := .ok sent
  deliver sent := if sent < 2 then .ok (BitVec.ofNat 8 sent, sent + 1) else .error .stretch
  schedule _ := 3
  fair n := ⟨n, le_rfl, Nat.succ_pos 2⟩

theorem i2c_read_readBack_tired :
    ∃ after, Settles (fun fuel ↦ i2c_read tired.bsc 8 4 fuel
        ⟨⟨0, [7, 7], .idle, false, false, 0, 0, true, true, false, 0⟩, fun _ ↦ 0xAA, 0, 0,
          .REASON_OK⟩) after ∧
      bytes after.memory 8 2 = [0, 1] ∧ after.memory 10 = 0xAA ∧
        after.reason = .REASON_ERROR_CLKT := by
  obtain ⟨after, hsettles, hread⟩ := @i2c_read_readBack _ tired
    ⟨⟨0, [7, 7], .idle, false, false, 0, 0, true, true, false, 0⟩, fun _ ↦ 0xAA, 0, 0,
      .REASON_OK⟩ 8 4 rfl
  exact ⟨after, hsettles, hread.received, hread.frame 10 (by decide), hread.reason⟩

end Read

end PiFunk.Bcm2835
