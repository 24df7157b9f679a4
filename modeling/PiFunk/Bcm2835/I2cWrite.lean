import PiFunk.Bcm2835.I2cBus

/-!
# Writing to a slave

On the bus `bcm2835_i2c_write` always ends, and it has done to the slave what one transfer of the
whole buffer does: the slave is offered the bytes in order, up to the first one it does not
acknowledge, and the reason tells which way it ended.  This is carried by one invariant: at every
moment, the transfer that is still to come has the outcome of the whole transfer.

Of a buffer that is longer than the data length can tell, only the remainder is transferred, and the
reason is then that data are missing.
-/

namespace PiFunk.Bcm2835

open Display FuelLoop Acknowledge Schedule

variable {σ : Type*}

/-! ## The outlook of a transfer -/

/-- What will have become of the transfer when the bytes in the FIFO and these have been moved. -/
def I2cBus.outlook (bus : I2cBus σ) (unsent : List Byte) (bsc : Bsc σ) : Option Refusal × σ :=
  match bsc.phase with
  | .idle => (bsc.verdict, bsc.slave)
  | .selecting => bus.written bsc.slave ((bsc.fifo ++ unsent).take bsc.left)
  | .moving => listen bus.accept bsc.slave ((bsc.fifo ++ unsent).take bsc.left)

/-- A transfer with a known outcome, and so many bytes more than its data length. -/
structure Writing (bus : I2cBus σ) (outcome : Option Refusal × σ) (surplus : ℕ)
    (unsent : List Byte) (bsc : Bsc σ) : Prop where
  reading : bsc.reading = false
  outlook : bus.outlook unsent bsc = outcome
  ended : bsc.phase = .idle → bsc.done = true
  underway : bsc.phase ≠ .idle → bsc.done = false ∧ bsc.err = false ∧ bsc.clkt = false
  counts : bsc.phase ≠ .idle → bsc.fifo.length + unsent.length = bsc.left + surplus
  complete : bsc.phase = .idle → bsc.verdict = none → bsc.fifo.length + unsent.length = surplus
  room : bsc.fifo.length ≤ BSC_FIFO_SIZE

section Writing

variable {bus : I2cBus σ} {outcome : Option Refusal × σ} {surplus : ℕ} {unsent : List Byte}
  {bsc : Bsc σ}

theorem verdict_abort (reason : Refusal) (herr : bsc.err = false) (hclkt : bsc.clkt = false) :
    (bsc.abort reason).verdict = some reason := by
  cases reason <;> simp [Bsc.verdict, Bsc.abort, herr, hclkt]

/-- A transfer broken off for the reason it had to be. -/
theorem Writing.abort (hwriting : Writing bus outcome surplus unsent bsc)
    (hactive : bsc.phase ≠ .idle) {reason : Refusal}
    (houtcome : outcome = (some reason, bsc.slave)) :
    Writing bus outcome surplus unsent (bsc.abort reason) := by
  obtain ⟨-, herr, hclkt⟩ := hwriting.underway hactive
  have hverdict := verdict_abort reason herr hclkt
  refine ⟨hwriting.reading, ?_, fun _ ↦ rfl, fun hbusy ↦ absurd rfl hbusy,
    fun hbusy ↦ absurd rfl hbusy, ?_, hwriting.room⟩
  · change ((bsc.abort reason).verdict, bsc.slave) = outcome
    rw [hverdict, houtcome]
  · intro _ hnone
    rw [hverdict] at hnone
    cases hnone

/-- The step lemma: a step moves the transfer on and leaves its outlook. -/
theorem Writing.step (hwriting : Writing bus outcome surplus unsent bsc) :
    Writing bus outcome surplus unsent (bus.step bsc) := by
  cases hphase : bsc.phase with
  | idle =>
    rw [step_idle bus hphase]
    exact hwriting
  | selecting =>
    have hactive : bsc.phase ≠ .idle := by
      rw [hphase]
      decide
    have houtlook := hwriting.outlook
    unfold I2cBus.outlook at houtlook
    rw [hphase] at houtlook
    unfold I2cBus.step
    simp only [hphase, hwriting.reading]
    cases hselect : bus.select bsc.slave false with
    | error reason =>
      refine hwriting.abort hactive ?_
      rw [← houtlook]
      simp only [I2cBus.written, hselect]
    | ok slave =>
      dsimp only
      refine ⟨rfl, ?_, nofun, fun _ ↦ hwriting.underway hactive,
        fun _ ↦ hwriting.counts hactive, nofun, hwriting.room⟩
      rw [← houtlook]
      simp only [I2cBus.written, I2cBus.outlook, hselect]
  | moving =>
    have hactive : bsc.phase ≠ .idle := by
      rw [hphase]
      decide
    have houtlook := hwriting.outlook
    have hcounts := hwriting.counts hactive
    unfold I2cBus.outlook at houtlook
    rw [hphase] at houtlook
    unfold I2cBus.step
    simp only [hphase, hwriting.reading, Bool.false_eq_true, if_false]
    split_ifs with hleft
    · -- the data length has been moved
      obtain ⟨-, herr, hclkt⟩ := hwriting.underway hactive
      rw [hleft, List.take_zero] at houtlook
      refine ⟨hwriting.reading, ?_, fun _ ↦ rfl, fun hbusy ↦ absurd rfl hbusy,
        fun hbusy ↦ absurd rfl hbusy, fun _ _ ↦ ?_, hwriting.room⟩
      · rw [← houtlook]
        simp [I2cBus.outlook, Bsc.finish, Bsc.verdict, herr, hclkt, Acknowledge.listen]
      · rw [hleft, Nat.zero_add] at hcounts
        exact hcounts
    · unfold I2cBus.sendByte
      obtain ⟨left, hsucc⟩ := Nat.exists_eq_succ_of_ne_zero hleft
      cases hfifo : bsc.fifo with
      | nil => exact hwriting
      | cons byte fifo =>
        have hroom := hwriting.room
        rw [hfifo, List.length_cons] at hroom hcounts
        rw [hfifo, hsucc, List.cons_append, List.take_succ_cons] at houtlook
        dsimp only
        cases haccept : bus.accept bsc.slave byte with
        | error reason =>
          refine hwriting.abort hactive ?_
          rw [← houtlook, listen_cons_error haccept]
        | ok slave =>
          dsimp only at houtlook ⊢
          refine ⟨hwriting.reading, ?_, fun hidle ↦ absurd hidle hactive,
            fun _ ↦ hwriting.underway hactive, fun _ ↦ ?_, fun hidle ↦ absurd hidle hactive,
            Nat.le_of_succ_le hroom⟩
          · rw [← houtlook, listen_cons_ok haccept]
            simp only [I2cBus.outlook, hphase, hsucc, Nat.succ_eq_add_one, Nat.add_sub_cancel]
          · dsimp only
            omega

theorem Writing.elapse (hwriting : Writing bus outcome surplus unsent bsc) :
    Writing bus outcome surplus unsent (bus.elapse bsc) :=
  elapse_of_invariant bus (fun _ ↦ Writing.step)
    (fun _ _ h ↦ ⟨h.reading, h.outlook, h.ended, h.underway, h.counts, h.complete, h.room⟩) hwriting

theorem Writing.push {byte : Byte} {rest : List Byte}
    (hwriting : Writing bus outcome surplus (byte :: rest) bsc)
    (hroom : bsc.fifo.length < BSC_FIFO_SIZE) :
    Writing bus outcome surplus rest { bsc with fifo := bsc.fifo ++ [byte] } := by
  have hlength : (bsc.fifo ++ [byte]).length + rest.length =
      bsc.fifo.length + (byte :: rest).length := by
    simp only [List.length_append, List.length_cons, List.length_nil]
    omega
  refine ⟨hwriting.reading, ?_, hwriting.ended, hwriting.underway, ?_, ?_, ?_⟩
  · rw [← hwriting.outlook]
    unfold I2cBus.outlook
    dsimp only
    rw [List.append_assoc, List.singleton_append]
    rfl
  · intro hbusy
    exact hlength.trans (hwriting.counts hbusy)
  · intro hidle hnone
    exact hlength.trans (hwriting.complete hidle hnone)
  · rw [List.length_append]
    exact hroom

end Writing

/-! ## The FIFO -/

section Fifo

variable (bus : I2cBus σ) {bsc : Bsc σ}

/-- While it sends, the controller does not fill the FIFO. -/
theorem elapse_fifo_le (hreading : bsc.reading = false) :
    (bus.elapse bsc).fifo.length ≤ bsc.fifo.length := by
  have hstep (reached : Bsc σ)
      (hreached : reached.reading = false ∧ reached.fifo.length ≤ bsc.fifo.length) :
      (bus.step reached).reading = false ∧ (bus.step reached).fifo.length ≤ bsc.fifo.length := by
    obtain ⟨hputs, hle⟩ := hreached
    unfold I2cBus.step
    simp only [hputs, Bool.false_eq_true, if_false]
    unfold I2cBus.sendByte Bsc.finish Bsc.abort
    repeat' split
    all_goals simp_all
    all_goals omega
  exact (elapse_of_invariant bus hstep (fun _ _ h ↦ h) ⟨hreading, le_rfl⟩).2

theorem write_fifo (signedness : Signedness) (byte : Byte)
    (hroom : (bus.elapse bsc).fifo.length < BSC_FIFO_SIZE) :
    bus.bsc.write .FIFO (promote signedness byte) bsc =
      { bus.elapse bsc with fifo := (bus.elapse bsc).fifo ++ [byte] } := by
  change (if _ then _ else _) = _
  rw [if_pos hroom, toChar_promote]

end Fifo

/-! ## The loops -/

/-- The first bytes of the buffer have been put into the FIFO. -/
structure Puts (bus : I2cBus σ) (outcome : Option Refusal × σ) (surplus : ℕ)
    (memory : ℕ → Byte) (buf : ℕ) (len : CInt) (transfer : I2cTransfer (Bsc σ)) : Prop where
  unchanged : transfer.memory = memory
  counts : transfer.i.toNat + transfer.remaining.toNat = len.toNat
  writing : Writing bus outcome surplus ((bytes memory buf len.toNat).drop transfer.i.toNat)
    transfer.device
  reason : transfer.reason = .REASON_OK

section Loops

variable {bus : I2cBus σ} {outcome : Option Refusal × σ} {surplus : ℕ} {memory : ℕ → Byte}
  {buf : ℕ} {len : CInt} {transfer : I2cTransfer (Bsc σ)} (signedness : Signedness)

theorem Puts.polled (hputs : Puts bus outcome surplus memory buf len transfer) :
    Puts bus outcome surplus memory buf len (transfer.polled bus) :=
  ⟨hputs.unchanged, hputs.counts, hputs.writing.elapse, hputs.reason⟩

theorem drop_bytes (memory : ℕ → Byte) (buf : ℕ) {i count : ℕ} (hless : i < count) :
    (bytes memory buf count).drop i =
      memory (buf + i) :: (bytes memory buf count).drop (i + 1) := by
  rw [List.drop_eq_getElem_cons (by rwa [length_bytes])]
  simp [bytes]

theorem Puts.put (hputs : Puts bus outcome surplus memory buf len transfer)
    (hmore : transfer.remaining ≠ 0) (hroom : transfer.device.fifo.length < BSC_FIFO_SIZE) :
    Puts bus outcome surplus memory buf len (transfer.put signedness bus.bsc buf) := by
  obtain ⟨hnext, hleft⟩ := counts_succ hputs.counts hmore
  have hcounts := hputs.counts
  have hroom' : (bus.elapse transfer.device).fifo.length < BSC_FIFO_SIZE :=
    (elapse_fifo_le bus hputs.writing.reading).trans_lt hroom
  have hwriting := hputs.writing.elapse
  rw [drop_bytes memory buf (by omega)] at hwriting
  refine ⟨hputs.unchanged, ?_, ?_, hputs.reason⟩
  · change (transfer.i + 1).toNat + (transfer.remaining - 1).toNat = len.toNat
    omega
  · change Writing _ _ _ (List.drop (transfer.i + 1).toNat _)
      (bus.bsc.write .FIFO (promote signedness _) transfer.device)
    rw [write_fifo bus signedness _ hroom', hnext, hputs.unchanged]
    exact hwriting.push hroom'

/-- What the program and the controller have left to do. -/
def I2cTransfer.outstanding (bus : I2cBus σ) (transfer : I2cTransfer (Bsc σ)) : ℕ × ℕ :=
  bus.outstanding transfer.remaining.toNat transfer.device

theorem put_work_lt (hputs : Puts bus outcome surplus memory buf len transfer)
    (hmore : transfer.remaining ≠ 0) (hroom : transfer.device.fifo.length < BSC_FIFO_SIZE) :
    ((transfer.put signedness bus.bsc buf).outstanding bus).1 < (transfer.outstanding bus).1 := by
  obtain ⟨-, hleft⟩ := counts_succ hputs.counts hmore
  have hroom' : (bus.elapse transfer.device).fifo.length < BSC_FIFO_SIZE :=
    (elapse_fifo_le bus hputs.writing.reading).trans_lt hroom
  have hpending := pending_elapse_le bus transfer.device
  change 2 * (transfer.remaining - 1).toNat +
    (bus.bsc.write .FIFO (promote signedness _) transfer.device).pending < _
  rw [write_fifo bus signedness _ hroom']
  have hpush : ({ bus.elapse transfer.device with
      fifo := (bus.elapse transfer.device).fifo ++
        [transfer.memory (buf + transfer.i.toNat)] } : Bsc σ).pending =
      (bus.elapse transfer.device).pending + 1 := by
    simp only [Bsc.pending, List.length_append, List.length_singleton]
    omega
  rw [hpush]
  change _ < 2 * transfer.remaining.toNat + transfer.device.pending
  omega

/-- Where the loop that writes ends: there is room for no more, or nothing to write. -/
structure Fed (bus : I2cBus σ) (outcome : Option Refusal × σ) (surplus : ℕ) (memory : ℕ → Byte)
    (buf : ℕ) (len : CInt) (start final : I2cTransfer (Bsc σ)) : Prop where
  puts : Puts bus outcome surplus memory buf len final
  canMove : final.device.phase ≠ .idle → final.device.CanMove
  progress : (final.outstanding bus).1 < (start.outstanding bus).1 ∨ final = start ∨
    final = start.polled bus ∧ BSC_FIFO_SIZE ≤ final.device.fifo.length

theorem Puts.canMove_of_full (hputs : Puts bus outcome surplus memory buf len transfer)
    (hfull : BSC_FIFO_SIZE ≤ transfer.device.fifo.length) : transfer.device.CanMove := by
  intro _ _
  rw [if_neg (by rw [hputs.writing.reading]; decide)]
  intro hempty
  rw [hempty] at hfull
  exact absurd hfull (by decide)

theorem Puts.canMove_of_none_left (hputs : Puts bus outcome surplus memory buf len transfer)
    (hnone : transfer.remaining = 0) (hactive : transfer.device.phase ≠ .idle) :
    transfer.device.CanMove := by
  intro _ hleft
  have hlengths := hputs.writing.counts hactive
  have hcounts := hputs.counts
  rw [hnone] at hcounts
  rw [if_neg (by rw [hputs.writing.reading]; decide)]
  intro hempty
  rw [hempty, List.length_nil, List.length_drop, length_bytes] at hlengths
  have hzero : (0 : CInt).toNat = 0 := rfl
  omega

/-- The step lemma of the inner loop. -/
theorem exists_feed {start : I2cTransfer (Bsc σ)}
    (hstart : Puts bus outcome surplus memory buf len start) :
    ∃ final, Settles (fun fuel ↦ feed signedness bus.bsc buf fuel start) final ∧
      Fed bus outcome surplus memory buf len start final := by
  let round : I2cTransfer (Bsc σ) → Iteration Empty (I2cTransfer (Bsc σ)) := fun transfer ↦
    if transfer.remaining ≠ 0 then
      if isSet (bus.elapse transfer.device).status Bsc.S.TXD then
        .again ((transfer.polled bus).put signedness bus.bsc buf)
      else .exit (transfer.polled bus)
    else .exit transfer
  have hstep (reached : I2cTransfer (Bsc σ))
      (hreached : Puts bus outcome surplus memory buf len reached ∧
        (reached = start ∨ (reached.outstanding bus).1 < (start.outstanding bus).1)) :
      (∃ final, Steps (fun _ ↦ round) reached (.exit final) ∧
          Fed bus outcome surplus memory buf len start final) ∨
        ∃ next, Steps (fun _ ↦ round) reached (.again next) ∧
          (Puts bus outcome surplus memory buf len next ∧
            (next = start ∨ (next.outstanding bus).1 < (start.outstanding bus).1)) ∧
          next.remaining.toNat < reached.remaining.toNat := by
    obtain ⟨hputs, hprogress⟩ := hreached
    have hpolled := hputs.polled
    have hwork : ((reached.polled bus).outstanding bus).1 ≤ (reached.outstanding bus).1 :=
      Nat.add_le_add_left (pending_elapse_le bus reached.device) _
    by_cases hmore : reached.remaining ≠ 0
    · by_cases hroom : (bus.elapse reached.device).fifo.length < BSC_FIFO_SIZE
      · have hput := put_work_lt signedness hpolled hmore hroom
        refine .inr ⟨_, .of_eq fun _ ↦ (if_pos hmore).trans
          (if_pos ((isSet_bsc_txd_iff _).mpr hroom)), ⟨hpolled.put signedness hmore hroom, .inr ?_⟩,
          ?_⟩
        · rcases hprogress with rfl | hless
          · exact hput.trans_le hwork
          · exact (hput.trans_le hwork).trans hless
        · have hleft := (counts_succ hputs.counts hmore).2
          change (reached.remaining - 1).toNat < _
          omega
      · refine .inl ⟨_, .of_eq fun _ ↦ (if_pos hmore).trans
          (if_neg (mt (isSet_bsc_txd_iff _).mp hroom)), hpolled,
          fun _ ↦ hpolled.canMove_of_full (not_lt.mp hroom), ?_⟩
        rcases hprogress with rfl | hless
        · exact .inr (.inr ⟨rfl, not_lt.mp hroom⟩)
        · exact .inl (hwork.trans_lt hless)
    · exact .inl ⟨_, .of_eq fun _ ↦ if_neg hmore, hputs,
        hputs.canMove_of_none_left (not_not.mp hmore), hprogress.symm.imp_right .inl⟩
  obtain ⟨final, hsettles, hfed⟩ :=
    exists_loopSettles _ _ Nat.lt_wfRel.wf (fun t : I2cTransfer (Bsc σ) ↦ t.remaining.toNat) hstep
      ⟨hstart, .inl rfl⟩
  exact ⟨final, hsettles.settles, hfed⟩

/-- The run lemma: the controller gets done. -/
theorem exists_untilDone_feed (hputs : Puts bus outcome surplus memory buf len transfer)
    (hmove : transfer.device.phase ≠ .idle → transfer.device.CanMove) :
    ∃ final, Settles (fun fuel ↦ untilDone bus.bsc (feed signedness bus.bsc buf) fuel transfer)
        final ∧
      Puts bus outcome surplus memory buf len final ∧ final.device.phase = .idle := by
  let round : ℕ → I2cTransfer (Bsc σ) → Iteration Empty (I2cTransfer (Bsc σ)) :=
    fun fuel transfer ↦
      if isSet (bus.elapse transfer.device).status Bsc.S.DONE then .exit (transfer.polled bus)
      else (feed signedness bus.bsc buf fuel (transfer.polled bus)).again
  have hstep (reached : I2cTransfer (Bsc σ))
      (hreached : Puts bus outcome surplus memory buf len reached ∧
        (reached.device.phase ≠ .idle → reached.device.CanMove)) :
      (∃ final, Steps round reached (.exit final) ∧
          Puts bus outcome surplus memory buf len final ∧ final.device.phase = .idle) ∨
        ∃ next, Steps round reached (.again next) ∧
          (Puts bus outcome surplus memory buf len next ∧
            (next.device.phase ≠ .idle → next.device.CanMove)) ∧
          Prod.Lex (· < ·) (· < ·) (next.outstanding bus) (reached.outstanding bus) := by
    obtain ⟨hputs, hmove⟩ := hreached
    have hpolled := hputs.polled
    by_cases hdone : (bus.elapse reached.device).done = true
    · refine .inl ⟨_, .of_eq fun _ ↦ if_pos ((isSet_bsc_done_iff _).mpr hdone), hpolled, ?_⟩
      by_contra hactive
      exact absurd hdone (ne_true_of_eq_false (hpolled.writing.underway hactive).1)
    · have hbusy : (bus.elapse reached.device).phase ≠ .idle :=
        fun hidle ↦ hdone (hpolled.writing.ended hidle)
      have hactive : reached.device.phase ≠ .idle := by
        intro hidle
        rw [bsc_elapse_idle bus hidle] at hbusy
        exact hbusy hidle
      have hless := outstanding_elapse_lt bus hactive (hmove hactive) reached.remaining.toNat
      obtain ⟨next, hfeed, hfed⟩ := exists_feed signedness hpolled
      refine .inr ⟨next, hfeed.steps fun _ ↦ if_neg (mt (isSet_bsc_done_iff _).mp hdone),
        ⟨hfed.puts, hfed.canMove⟩, ?_⟩
      rcases hfed.progress with hwork | rfl | ⟨rfl, hfull⟩
      · refine Prod.Lex.left _ _ (hwork.trans_le ?_)
        exact Nat.add_le_add_left (pending_elapse_le bus reached.device) _
      · exact hless
      · have hfull' := hfull.trans (elapse_fifo_le bus hpolled.writing.reading)
        exact trans_of (Prod.Lex (· < ·) (· < ·)) (outstanding_elapse_lt bus hbusy
          (hpolled.canMove_of_full hfull') reached.remaining.toNat) hless
  obtain ⟨final, hsettles, hfinal⟩ := exists_loopSettles _ _
    (Nat.lt_wfRel.wf.prod_lex Nat.lt_wfRel.wf) (I2cTransfer.outstanding bus) hstep ⟨hputs, hmove⟩
  exact ⟨final, hsettles.settles, hfinal⟩

end Loops

/-! ## The whole transfer -/

section Write

variable (bus : I2cBus σ) (signedness : Signedness) {buf : ℕ} {len : CInt}
  {before transfer : I2cTransfer (Bsc σ)}

/-- The FIFO before the start. -/
structure Filled (buf : ℕ) (len : CInt) (before transfer : I2cTransfer (Bsc σ)) : Prop where
  slave : transfer.device.slave = before.device.slave
  memory : transfer.memory = before.memory
  counts : transfer.i.toNat + transfer.remaining.toNat = len.toNat
  fifo : transfer.device.fifo = (bytes before.memory buf len.toNat).take transfer.i.toNat
  few : transfer.i.toNat ≤ BSC_FIFO_SIZE
  idle : transfer.device.phase = .idle
  dlen : transfer.device.dlen = len.toNat % 2 ^ 16
  done : transfer.device.done = false
  err : transfer.device.err = false
  clkt : transfer.device.clkt = false
  reason : transfer.reason = .REASON_OK

theorem Ready.filled (hready : Ready len len before transfer) : Filled buf len before transfer where
  slave := hready.slave
  memory := hready.memory
  counts := by
    rw [hready.i, hready.remaining]
    exact Nat.zero_add _
  fifo := by
    rw [hready.fifo, hready.i]
    rfl
  few := by
    rw [hready.i]
    exact Nat.zero_le _
  idle := hready.idle
  dlen := hready.dlen
  done := hready.done
  err := hready.err
  clkt := hready.clkt
  reason := hready.reason

theorem Filled.put (hfilled : Filled buf len before transfer) (hmore : transfer.remaining ≠ 0)
    (hroom : transfer.i.toNat < BSC_FIFO_SIZE) :
    Filled buf len before (transfer.put signedness bus.bsc buf) := by
  obtain ⟨hnext, hleft⟩ := counts_succ hfilled.counts hmore
  have hcounts := hfilled.counts
  have hless : transfer.i.toNat < (bytes before.memory buf len.toNat).length := by
    rw [length_bytes]
    omega
  have helapse := bsc_elapse_idle bus hfilled.idle
  have hwrite : bus.bsc.write .FIFO
      (promote signedness (transfer.memory (buf + transfer.i.toNat))) transfer.device =
      { transfer.device with
        fifo := transfer.device.fifo ++ [before.memory (buf + transfer.i.toNat)]
        accesses := transfer.device.accesses + 1 } := by
    rw [write_fifo bus signedness, helapse, hfilled.memory]
    rw [helapse, hfilled.fifo, List.length_take, length_bytes]
    exact (Nat.min_le_left _ _).trans_lt hroom
  unfold I2cTransfer.put
  rw [hwrite]
  refine ⟨hfilled.slave, hfilled.memory, ?_, ?_, ?_, hfilled.idle, hfilled.dlen, hfilled.done,
    hfilled.err, hfilled.clkt, hfilled.reason⟩
  · dsimp only
    omega
  · dsimp only
    rw [hnext, List.take_succ_eq_append_getElem hless, hfilled.fifo]
    simp [bytes]
  · dsimp only
    omega

theorem exists_populate (hfilled : Filled buf len before transfer) :
    ∃ final, Settles (fun fuel ↦ populate signedness bus.bsc buf fuel transfer) final ∧
      Filled buf len before final := by
  have hstep (reached : I2cTransfer (Bsc σ)) (hreached : Filled buf len before reached) :
      (∃ final, Steps (fun _ ↦ whileIteration
            (fun t : I2cTransfer (Bsc σ) ↦ t.remaining ≠ 0 ∧ t.i.toNat < BSC_FIFO_SIZE)
            fun t ↦ (.done (t.put signedness bus.bsc buf) : Outcome Empty _)) reached
            (.exit final) ∧ Filled buf len before final) ∨
        ∃ next, Steps (fun _ ↦ whileIteration
            (fun t : I2cTransfer (Bsc σ) ↦ t.remaining ≠ 0 ∧ t.i.toNat < BSC_FIFO_SIZE)
            fun t ↦ (.done (t.put signedness bus.bsc buf) : Outcome Empty _)) reached
            (.again next) ∧ Filled buf len before next ∧
          next.remaining.toNat < reached.remaining.toNat := by
    by_cases hmore : reached.remaining ≠ 0 ∧ reached.i.toNat < BSC_FIFO_SIZE
    · have hleft := (counts_succ hreached.counts hmore.1).2
      refine .inr ⟨_, .of_eq fun _ ↦ whileIteration_step (decide_eq_true hmore),
        hreached.put bus signedness hmore.1 hmore.2, ?_⟩
      change (reached.remaining - 1).toNat < _
      omega
    · exact .inl ⟨reached, .of_eq fun _ ↦ whileIteration_of_false (decide_eq_false hmore),
        hreached⟩
  obtain ⟨final, hsettles, hfinal⟩ := exists_loopSettles _ _ Nat.lt_wfRel.wf
    (fun t : I2cTransfer (Bsc σ) ↦ t.remaining.toNat) hstep hfilled
  exact ⟨final, hsettles.settles, hfinal⟩

/-- The bytes that the data length covers. -/
def transferred (memory : ℕ → Byte) (buf : ℕ) (len : CInt) : List Byte :=
  (bytes memory buf len.toNat).take (len.toNat % 2 ^ 16)

theorem Filled.puts (hfilled : Filled buf len before transfer) :
    Puts bus (bus.written before.device.slave (transferred before.memory buf len))
        (len.toNat - len.toNat % 2 ^ 16) before.memory buf len
        (transfer.write bus.bsc .C (Bsc.C.I2CEN ||| Bsc.C.ST)) ∧
      (transfer.write bus.bsc .C (Bsc.C.I2CEN ||| Bsc.C.ST)).device.CanMove := by
  have hwrite : bus.bsc.write .C (Bsc.C.I2CEN ||| Bsc.C.ST) transfer.device =
      { transfer.device with
        enabled := true
        reading := false
        phase := .selecting
        left := transfer.device.dlen
        accesses := transfer.device.accesses + 1 } := by
    change bus.writeRegister .C _ transfer.device = _
    unfold I2cBus.writeRegister
    rw [bsc_elapse_idle bus hfilled.idle]
    exact if_pos ⟨hfilled.idle, by decide, by decide⟩
  unfold I2cTransfer.write
  rw [hwrite]
  refine ⟨⟨hfilled.memory, hfilled.counts, ⟨rfl, ?_, nofun,
    fun _ ↦ ⟨hfilled.done, hfilled.err, hfilled.clkt⟩, fun _ ↦ ?_, nofun, ?_⟩, hfilled.reason⟩,
    nofun⟩
  · change bus.written transfer.device.slave
      ((transfer.device.fifo ++ _).take transfer.device.dlen) = _
    rw [hfilled.slave, hfilled.fifo, List.take_append_drop, hfilled.dlen]
    rfl
  · have hcounts := hfilled.counts
    have hmod := Nat.mod_le len.toNat (2 ^ 16)
    dsimp only
    rw [hfilled.fifo, hfilled.dlen, List.length_take, List.length_drop, length_bytes]
    omega
  · dsimp only
    rw [hfilled.fifo, List.length_take]
    exact (Nat.min_le_left _ _).trans hfilled.few

structure Wrote (buf : ℕ) (len : CInt) (before after : I2cTransfer (Bsc σ)) : Prop where
  slave : after.device.slave =
    (bus.written before.device.slave (transferred before.memory buf len)).2
  reason : after.reason = reasonOf
    (bus.written before.device.slave (transferred before.memory buf len)).1 (len.toNat / 2 ^ 16)
  memory : after.memory = before.memory
  idle : after.device.phase = .idle

/-- On every bus a write ends, and it is one transfer to the slave. -/
theorem i2c_write_wrote (buf : ℕ) (len : CInt) (hidle : before.device.phase = .idle) :
    ∃ after, Settles (fun fuel ↦ i2c_write signedness bus.bsc buf len fuel before) after ∧
      Wrote bus buf len before after := by
  obtain ⟨filled, hpopulate, hfilled⟩ :=
    exists_populate bus signedness (@Ready.filled σ buf len _ _ (prepare_ready bus len len hidle))
  obtain ⟨hputs, hmove⟩ := hfilled.puts bus
  obtain ⟨final, hdone, hfinal, hover⟩ := exists_untilDone_feed signedness hputs fun _ ↦ hmove
  have hconcluded := conclude_concluded bus hover hfinal.reason
  have houtlook := hfinal.writing.outlook
  unfold I2cBus.outlook at houtlook
  rw [hover] at houtlook
  dsimp only at houtlook
  have hstarted : Settles (fun fuel ↦
      (populate signedness bus.bsc buf fuel (prepare bus.bsc len len before)).andThen
        fun transfer ↦ .done (transfer.write bus.bsc .C (Bsc.C.I2CEN ||| Bsc.C.ST)))
      (filled.write bus.bsc .C (Bsc.C.I2CEN ||| Bsc.C.ST)) :=
    @Settles.andThen Empty _ _ (fun _ (t : I2cTransfer (Bsc σ)) ↦
      .done (t.write bus.bsc .C (Bsc.C.I2CEN ||| Bsc.C.ST))) _ _ hpopulate (.of_done fun _ ↦ rfl)
  refine ⟨conclude bus.bsc final, (hstarted.andThen hdone).andThen (.of_done fun _ ↦ rfl), ?_, ?_,
    ?_, hconcluded.idle⟩
  · rw [hconcluded.slave, ← houtlook]
  · rw [hconcluded.reason, ← houtlook]
    cases hverdict : final.device.verdict with
    | some reason => cases reason <;> rfl
    | none =>
      have hlengths := hfinal.writing.complete hover hverdict
      have hcounts := hfinal.counts
      have hroom := hfinal.writing.room
      rw [List.length_drop, length_bytes] at hlengths
      have hsame : final.remaining.toNat ≠ 0 ↔ len.toNat / 2 ^ 16 ≠ 0 := by
        unfold BSC_FIFO_SIZE at hroom
        omega
      simp only [reasonOf, hsame]
  · rw [hconcluded.memory, hfinal.unchanged]

/-- A slave with room for two bytes, on a bus that never waits. -/
def smallSlave : I2cBus (List Byte) where
  select stored _ := .ok stored
  accept stored byte := if stored.length < 2 then .ok (stored ++ [byte]) else .error .nack
  deliver stored := .ok (0xFF, stored)
  schedule _ := 2
  fair n := ⟨n, le_rfl, Nat.succ_pos 1⟩

/-- Three bytes to it. -/
theorem i2c_write_wrote_smallSlave :
    ∃ after, Settles (fun fuel ↦ i2c_write .unsigned smallSlave.bsc 0 3 fuel
        ⟨⟨[], [], .idle, false, false, 0, 0, true, true, false, 0⟩,
          fun address ↦ BitVec.ofNat 8 address, 0, 0, .REASON_OK⟩) after ∧
      after.device.slave = [0, 1] ∧ after.reason = .REASON_ERROR_NACK := by
  obtain ⟨after, hsettles, hwrote⟩ := @i2c_write_wrote _ smallSlave .unsigned
    ⟨⟨[], [], .idle, false, false, 0, 0, true, true, false, 0⟩,
      fun address ↦ BitVec.ofNat 8 address, 0, 0, .REASON_OK⟩ 0 3 rfl
  exact ⟨after, hsettles, hwrote.slave, hwrote.reason⟩

end Write

end PiFunk.Bcm2835
