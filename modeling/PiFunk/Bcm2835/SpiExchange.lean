import PiFunk.Bcm2835.SpiBus

/-!
# Transfers on the bus

On the bus a transfer always ends.  The slave has then received the transmit buffer, and its answers
are in the receive buffer, also where the two buffers overlap, unless the receive buffer begins
inside the transmit buffer behind its first byte.
-/

namespace PiFunk.Bcm2835

open Display FuelLoop FullDuplex Schedule

variable {σ : Type*}

/-! ## The invariant of a transfer -/

/-- Filling the receive buffer from its start never overtakes the transmit buffer. -/
def Compatible (tbuf rbuf len : ℕ) : Prop := rbuf ≤ tbuf ∨ tbuf + len ≤ rbuf

/-- The transmit FIFO has taken the first bytes of the transmit buffer, the receive buffer has the
first answers of the slave, and nothing else in the memory has changed. -/
structure Exchanging (bus : Bus σ) (memory : ℕ → Byte) (partner : σ) (tbuf rbuf len : ℕ)
    (transfer : Transfer (Spi0 σ)) : Prop where
  active : isSet transfer.device.control Cs.TA
  keeps : ¬ isSet transfer.device.control Cs.CLEAR
  conserves : Conserves bus.respond partner (bytes memory tbuf transfer.TXCnt)
    (bytes transfer.memory rbuf transfer.RXCnt) transfer.device.line
  sent_le : transfer.TXCnt ≤ len
  received_le : transfer.RXCnt ≤ len
  frame : ∀ address, (∀ i < transfer.RXCnt, address ≠ rbuf + i) →
    transfer.memory address = memory address

section Exchanging

variable {bus : Bus σ} {memory : ℕ → Byte} {partner : σ} {tbuf rbuf len : ℕ}
  {transfer : Transfer (Spi0 σ)}

/-- The state behind a read of CS. -/
def Transfer.polled (bus : Bus σ) (transfer : Transfer (Spi0 σ)) : Transfer (Spi0 σ) :=
  { transfer with device := bus.elapse transfer.device }

theorem Exchanging.conserves_elapse
    (hexchanging : Exchanging bus memory partner tbuf rbuf len transfer) :
    Conserves bus.respond partner (bytes memory tbuf transfer.TXCnt)
      (bytes transfer.memory rbuf transfer.RXCnt) (bus.elapse transfer.device).line := by
  rw [elapse_active bus hexchanging.active]
  exact hexchanging.conserves.shift_iterate _

theorem Exchanging.polled (hexchanging : Exchanging bus memory partner tbuf rbuf len transfer) :
    Exchanging bus memory partner tbuf rbuf len (transfer.polled bus) where
  active := hexchanging.active
  keeps := hexchanging.keeps
  conserves := hexchanging.conserves_elapse
  sent_le := hexchanging.sent_le
  received_le := hexchanging.received_le
  frame := hexchanging.frame

theorem Exchanging.received_le_sent
    (hexchanging : Exchanging bus memory partner tbuf rbuf len transfer) :
    transfer.RXCnt ≤ transfer.TXCnt := by
  have hlength := hexchanging.conserves.length
  rw [length_bytes, length_bytes] at hlength
  omega

/-- The next byte to send has not been overwritten. -/
theorem Exchanging.memory_eq (hexchanging : Exchanging bus memory partner tbuf rbuf len transfer)
    (hcompatible : Compatible tbuf rbuf len) (hmore : transfer.TXCnt < len) :
    transfer.memory (tbuf + transfer.TXCnt) = memory (tbuf + transfer.TXCnt) := by
  have hcounts := hexchanging.received_le_sent
  refine hexchanging.frame _ fun i hi ↦ ?_
  rcases hcompatible with hbelow | habove
  · omega
  · omega

theorem Exchanging.send (hexchanging : Exchanging bus memory partner tbuf rbuf len transfer)
    (hcompatible : Compatible tbuf rbuf len) (hmore : transfer.TXCnt < len)
    (hroom : transfer.device.line.tx.length < bus.capacity) (signedness : Signedness) :
    Exchanging bus memory partner tbuf rbuf len
      (send signedness bus.spi0 tbuf transfer) := by
  have hroom' : (bus.elapse transfer.device).line.tx.length < bus.capacity :=
    (elapse_lengths bus transfer.device).1.trans_lt hroom
  have hdevice : (Bcm2835.send signedness bus.spi0 tbuf transfer).device =
      { bus.elapse transfer.device with
        line := push (memory (tbuf + transfer.TXCnt)) (bus.elapse transfer.device).line } := by
    change (if _ then _ else _) = _
    rw [if_pos hroom', toChar_promote, hexchanging.memory_eq hcompatible hmore]
  refine ⟨?_, ?_, ?_, hmore, hexchanging.received_le, hexchanging.frame⟩
  · rw [hdevice]
    exact hexchanging.active
  · rw [hdevice]
    exact hexchanging.keeps
  · rw [hdevice]
    change Conserves _ _ (bytes memory tbuf (transfer.TXCnt + 1)) _ _
    rw [bytes_succ]
    exact hexchanging.conserves_elapse.push _

theorem Exchanging.receive (hexchanging : Exchanging bus memory partner tbuf rbuf len transfer)
    (hmore : transfer.RXCnt < len) (hdata : transfer.device.line.rx ≠ []) :
    Exchanging bus memory partner tbuf rbuf len (receive bus.spi0 rbuf transfer) := by
  have hdata' : (bus.elapse transfer.device).line.rx ≠ [] := by
    have hlengths := (elapse_lengths bus transfer.device).2
    have hpositive := List.length_pos_iff.mpr hdata
    exact List.length_pos_iff.mp (by omega)
  obtain ⟨byte, rx, hrx⟩ := List.exists_cons_of_ne_nil hdata'
  have hread : bus.spi0.read .FIFO transfer.device =
      (byte.setWidth 32,
        { bus.elapse transfer.device with
          line := { (bus.elapse transfer.device).line with rx } }) := by
    change bus.readRegister .FIFO transfer.device = _
    unfold Bus.readRegister
    simp only [hrx]
  have hbyte : toChar (byte.setWidth 32) = byte := toChar_promote .unsigned byte
  unfold Bcm2835.receive
  rw [hread]
  simp only [hbyte]
  refine ⟨hexchanging.active, hexchanging.keeps, ?_, hexchanging.sent_le, hmore, ?_⟩
  · dsimp only
    rw [bytes_update]
    exact hexchanging.conserves_elapse.pop hrx
  · intro address haddress
    refine (Function.update_of_ne (haddress transfer.RXCnt (Nat.lt_succ_self _)) _ _).trans ?_
    exact hexchanging.frame address fun i hi ↦ haddress i (Nat.lt_succ_of_lt hi)

end Exchanging

/-! ## The loops -/

section Loops

variable (bus : Bus σ) (memory : ℕ → Byte) (partner : σ) (tbuf rbuf len : ℕ)

/-- A state of the loop that sends. -/
structure Sends (start reached : Transfer (Spi0 σ)) : Prop where
  exchanging : Exchanging bus memory partner tbuf rbuf len reached
  received : reached.RXCnt = start.RXCnt
  progress : reached = start ∨ start.TXCnt < reached.TXCnt

/-- Where that loop ends.  If it has sent nothing, the FIFO was full or all bytes were sent. -/
structure Sent (start final : Transfer (Spi0 σ)) : Prop where
  exchanging : Exchanging bus memory partner tbuf rbuf len final
  received : final.RXCnt = start.RXCnt
  progress : start.TXCnt < final.TXCnt ∨ final = start.polled bus ∧
    (bus.capacity ≤ final.device.line.tx.length ∨ final.TXCnt = len)

/-- A state of the loop that receives. -/
structure Receives (start reached : Transfer (Spi0 σ)) : Prop where
  exchanging : Exchanging bus memory partner tbuf rbuf len reached
  sent : reached.TXCnt = start.TXCnt
  progress : reached = start ∨ start.RXCnt < reached.RXCnt

/-- Where that loop ends.  If it has received nothing, the FIFO was empty or all bytes were
received. -/
structure Received (start final : Transfer (Spi0 σ)) : Prop where
  exchanging : Exchanging bus memory partner tbuf rbuf len final
  sent : final.TXCnt = start.TXCnt
  progress : start.RXCnt < final.RXCnt ∨ final = start.polled bus ∧
    (final.device.line.rx = [] ∨ final.RXCnt = len)

variable {bus memory partner tbuf rbuf len} (signedness : Signedness)
  {transfer : Transfer (Spi0 σ)}

theorem exists_sendLoop (hcompatible : Compatible tbuf rbuf len)
    (hexchanging : Exchanging bus memory partner tbuf rbuf len transfer) :
    ∃ final, Settles (fun fuel ↦ loop (sendIteration signedness bus.spi0 tbuf len) fuel transfer)
        final ∧ Sent bus memory partner tbuf rbuf len transfer final := by
  have hstep (reached : Transfer (Spi0 σ))
      (hreached : Sends bus memory partner tbuf rbuf len transfer reached) :
      (∃ final, Steps (fun _ ↦ sendIteration signedness bus.spi0 tbuf len) reached (.exit final) ∧
          Sent bus memory partner tbuf rbuf len transfer final) ∨
        ∃ next, Steps (fun _ ↦ sendIteration signedness bus.spi0 tbuf len) reached (.again next) ∧
          Sends bus memory partner tbuf rbuf len transfer next ∧
          len - next.TXCnt < len - reached.TXCnt := by
    have hpolled := hreached.exchanging.polled
    by_cases hguard : (reached.polled bus).device.line.tx.length < bus.capacity ∧
        (reached.polled bus).TXCnt < len
    · refine .inr ⟨_, .of_eq fun fuel ↦ if_pos ?_,
        ⟨hpolled.send hcompatible hguard.2 hguard.1 signedness, hreached.received, .inr ?_⟩, ?_⟩
      · exact ⟨(isSet_txd_iff bus _).mpr hguard.1, hguard.2⟩
      · rcases hreached.progress with rfl | hmore
        · exact Nat.lt_succ_self _
        · exact hmore.trans (Nat.lt_succ_self _)
      · exact Nat.sub_succ_lt_self _ _ hguard.2
    · refine .inl ⟨reached.polled bus, .of_eq fun fuel ↦ if_neg ?_, hpolled, hreached.received, ?_⟩
      · exact fun hset ↦ hguard ⟨(isSet_txd_iff bus _).mp hset.1, hset.2⟩
      · rcases hreached.progress with rfl | hmore
        · rcases not_and_or.mp hguard with hfull | hdone
          · exact .inr ⟨rfl, .inl (not_lt.mp hfull)⟩
          · exact .inr ⟨rfl, .inr (le_antisymm hpolled.sent_le (not_lt.mp hdone))⟩
        · exact .inl hmore
  obtain ⟨final, hsettles, hsent⟩ :=
    exists_loopSettles _ _ Nat.lt_wfRel.wf _ hstep ⟨hexchanging, rfl, .inl rfl⟩
  exact ⟨final, hsettles.settles, hsent⟩

theorem exists_receiveLoop
    (hexchanging : Exchanging bus memory partner tbuf rbuf len transfer) :
    ∃ final, Settles (fun fuel ↦ loop (receiveIteration bus.spi0 rbuf len) fuel transfer) final ∧
      Received bus memory partner tbuf rbuf len transfer final := by
  have hstep (reached : Transfer (Spi0 σ))
      (hreached : Receives bus memory partner tbuf rbuf len transfer reached) :
      (∃ final, Steps (fun _ ↦ receiveIteration bus.spi0 rbuf len) reached (.exit final) ∧
          Received bus memory partner tbuf rbuf len transfer final) ∨
        ∃ next, Steps (fun _ ↦ receiveIteration bus.spi0 rbuf len) reached (.again next) ∧
          Receives bus memory partner tbuf rbuf len transfer next ∧
          len - next.RXCnt < len - reached.RXCnt := by
    have hpolled := hreached.exchanging.polled
    by_cases hguard : (reached.polled bus).device.line.rx ≠ [] ∧ (reached.polled bus).RXCnt < len
    · refine .inr ⟨_, .of_eq fun fuel ↦ if_pos ?_,
        ⟨hpolled.receive hguard.2 hguard.1, hreached.sent, .inr ?_⟩, ?_⟩
      · exact ⟨(isSet_rxd_iff bus _).mpr hguard.1, hguard.2⟩
      · rcases hreached.progress with rfl | hmore
        · exact Nat.lt_succ_self _
        · exact hmore.trans (Nat.lt_succ_self _)
      · exact Nat.sub_succ_lt_self _ _ hguard.2
    · refine .inl ⟨reached.polled bus, .of_eq fun fuel ↦ if_neg ?_, hpolled, hreached.sent, ?_⟩
      · exact fun hset ↦ hguard ⟨(isSet_rxd_iff bus _).mp hset.1, hset.2⟩
      · rcases hreached.progress with rfl | hmore
        · rcases not_and_or.mp hguard with hempty | hdone
          · exact .inr ⟨rfl, .inl (not_not.mp hempty)⟩
          · exact .inr ⟨rfl, .inr (le_antisymm hpolled.received_le (not_lt.mp hdone))⟩
        · exact .inl hmore
  obtain ⟨final, hsettles, hreceived⟩ :=
    exists_loopSettles _ _ Nat.lt_wfRel.wf _ hstep ⟨hexchanging, rfl, .inl rfl⟩
  exact ⟨final, hsettles.settles, hreceived⟩

/-- What is left to do, and how long the line may still wait. -/
def outstanding (bus : Bus σ) (len : ℕ) (transfer : Transfer (Spi0 σ)) : ℕ × ℕ :=
  (2 * len - (transfer.TXCnt + transfer.RXCnt), wait bus.fair transfer.device.accesses)

/-- A round without any byte sent or received was a round in which the line has waited. -/
theorem wait_lt_of_idle {mid final : Transfer (Spi0 σ)}
    (hexchanging : Exchanging bus memory partner tbuf rbuf len transfer)
    (hmore : transfer.TXCnt < len ∨ transfer.RXCnt < len)
    (hmid : mid = transfer.polled bus) (hfinal : final = mid.polled bus)
    (hfull : bus.capacity ≤ mid.device.line.tx.length ∨ mid.TXCnt = len)
    (hempty : final.device.line.rx = [] ∨ final.RXCnt = len) :
    wait bus.fair final.device.accesses < wait bus.fair transfer.device.accesses := by
  have hlength := (hmid ▸ hexchanging.polled).conserves.length
  rw [length_bytes, length_bytes] at hlength
  have hsame : mid.TXCnt = transfer.TXCnt ∧ mid.RXCnt = transfer.RXCnt := hmid ▸ ⟨rfl, rfl⟩
  have hsent : transfer.TXCnt ≤ len := hexchanging.sent_le
  have hreceived : final.RXCnt = transfer.RXCnt := hfinal ▸ hsame.2
  -- if all bytes were received, all were sent, and the outer loop would have ended
  have hrx : final.device.line.rx = [] := by
    rcases hempty with hnone | hall
    · exact hnone
    · omega
  have hmidActive : isSet mid.device.control Cs.TA := hmid ▸ hexchanging.active
  have hsecond : final.device.line =
      (shift bus.respond bus.capacity)^[bus.schedule mid.device.accesses] mid.device.line := by
    rw [hfinal]
    exact elapse_active bus hmidActive
  have hfirst : mid.device.line =
      (shift bus.respond bus.capacity)^[bus.schedule transfer.device.accesses]
        transfer.device.line := by
    rw [hmid]
    exact elapse_active bus hexchanging.active
  obtain ⟨hkept, hlater⟩ := shift_iterate_rx_eq_nil bus.capacity_pos (hsecond ▸ hrx)
  have hmidRx : mid.device.line.rx = [] := by
    rw [← hkept, ← hsecond]
    exact hrx
  obtain ⟨hkept', hearlier⟩ := shift_iterate_rx_eq_nil bus.capacity_pos (hfirst ▸ hmidRx)
  -- there was a byte to send, so nothing was scheduled
  have hmidTx : mid.device.line.tx ≠ [] := by
    intro hnone
    rw [hnone, hmidRx] at hlength
    simp only [List.length_nil, Nat.add_zero] at hlength
    have hcapacity := bus.capacity_pos
    rcases hfull with hfull | hall
    · rw [hnone, List.length_nil] at hfull
      omega
    · omega
  have htx : transfer.device.line.tx ≠ [] := by
    rw [← hkept', ← hfirst]
    exact hmidTx
  have hzero := hearlier.resolve_right htx
  have hzero' := hlater.resolve_right hmidTx
  have haccesses : mid.device.accesses = transfer.device.accesses + 1 := hmid ▸ rfl
  have haccesses' : final.device.accesses = mid.device.accesses + 1 := hfinal ▸ rfl
  rw [haccesses']
  refine (wait_succ_lt bus.fair hzero').trans ?_
  rw [haccesses]
  exact wait_succ_lt bus.fair hzero

/-- The step lemma: a round keeps the invariant and makes progress, or the line has waited. -/
theorem exists_exchangeRound (hcompatible : Compatible tbuf rbuf len)
    (hexchanging : Exchanging bus memory partner tbuf rbuf len transfer)
    (hmore : transfer.TXCnt < len ∨ transfer.RXCnt < len) :
    ∃ next,
      Settles (fun fuel ↦ exchangeRound signedness bus.spi0 tbuf rbuf len fuel transfer) next ∧
      Exchanging bus memory partner tbuf rbuf len next ∧
      Prod.Lex (· < ·) (· < ·) (outstanding bus len next) (outstanding bus len transfer) := by
  obtain ⟨mid, hsends, hmid⟩ := exists_sendLoop signedness hcompatible hexchanging
  obtain ⟨next, hreceives, hnext⟩ := exists_receiveLoop hmid.exchanging
  refine ⟨next, hsends.andThen hreceives, hnext.exchanging, ?_⟩
  have hsent : transfer.TXCnt ≤ mid.TXCnt := by
    rcases hmid.progress with hless | ⟨rfl, -⟩
    · exact hless.le
    · exact le_rfl
  have hreceived : mid.RXCnt ≤ next.RXCnt := by
    rcases hnext.progress with hless | ⟨rfl, -⟩
    · exact hless.le
    · exact le_rfl
  have hnextSent := hnext.exchanging.sent_le
  have hnextReceived := hnext.exchanging.received_le
  have hsame := hnext.sent
  have hsame' := hmid.received
  by_cases hprogress : transfer.TXCnt + transfer.RXCnt < next.TXCnt + next.RXCnt
  · refine Prod.Lex.left _ _ ?_
    omega
  · have hidle : next.TXCnt + next.RXCnt = transfer.TXCnt + transfer.RXCnt := by omega
    rcases hmid.progress with hless | ⟨hmidEq, hfull⟩
    · omega
    rcases hnext.progress with hless | ⟨hnextEq, hempty⟩
    · omega
    rw [outstanding, outstanding, hidle]
    exact Prod.Lex.right _ (wait_lt_of_idle hexchanging hmore hmidEq hnextEq hfull hempty)

/-- The run lemma: the outer loop ends when both counts have reached the length. -/
theorem exists_exchangeLoop (hcompatible : Compatible tbuf rbuf len)
    (hexchanging : Exchanging bus memory partner tbuf rbuf len transfer) :
    ∃ final, Settles (fun fuel ↦ exchangeLoop signedness bus.spi0 tbuf rbuf len fuel transfer)
        final ∧
      Exchanging bus memory partner tbuf rbuf len final ∧ final.TXCnt = len ∧
        final.RXCnt = len := by
  have hstep (reached : Transfer (Spi0 σ))
      (hreached : Exchanging bus memory partner tbuf rbuf len reached) :
      (∃ final, Steps (fun fuel ↦ whileIteration
            (fun t : Transfer (Spi0 σ) ↦ t.TXCnt < len || t.RXCnt < len)
            (exchangeRound signedness bus.spi0 tbuf rbuf len fuel)) reached (.exit final) ∧
          Exchanging bus memory partner tbuf rbuf len final ∧ final.TXCnt = len ∧
            final.RXCnt = len) ∨
        ∃ next, Steps (fun fuel ↦ whileIteration
            (fun t : Transfer (Spi0 σ) ↦ t.TXCnt < len || t.RXCnt < len)
            (exchangeRound signedness bus.spi0 tbuf rbuf len fuel)) reached (.again next) ∧
          Exchanging bus memory partner tbuf rbuf len next ∧
          Prod.Lex (· < ·) (· < ·) (outstanding bus len next) (outstanding bus len reached) := by
    by_cases hmore : reached.TXCnt < len ∨ reached.RXCnt < len
    · obtain ⟨next, hround, hnext, hless⟩ :=
        exists_exchangeRound signedness hcompatible hreached hmore
      exact .inr ⟨next, steps_whileIteration (by simpa using hmore) hround, hnext, hless⟩
    · have hdone : reached.TXCnt = len ∧ reached.RXCnt = len := by
        have hsent := hreached.sent_le
        have hreceived := hreached.received_le
        omega
      refine .inl ⟨reached, .of_eq fun fuel ↦ whileIteration_of_false ?_, hreached, hdone⟩
      simpa using hmore
  obtain ⟨final, hsettles, hfinal⟩ := exists_loopSettles _ _
    (Nat.lt_wfRel.wf.prod_lex Nat.lt_wfRel.wf) (outstanding bus len) hstep hexchanging
  exact ⟨final, hsettles.settles, hfinal⟩

end Loops

/-! ## The whole transfer -/

section Transfers

variable (bus : Bus σ)

/-- A change of CS that clears nothing leaves a line alone that does not shift. -/
theorem peri_set_bits_keeps (value mask : CInt) {device : Spi0 σ}
    (hkeeps : ¬ isSet (bus.changed value mask device) Cs.CLEAR)
    (hstill : ¬ isSet device.control Cs.TA ∨ device.line.tx = []) :
    (bus.spi0.peri_set_bits .CS value mask device).line = device.line := by
  have hline : (bus.elapse device).line = device.line :=
    hstill.elim (elapse_idle bus) (elapse_empty bus)
  have hagain : (bus.elapse (bus.elapse device)).line = (bus.elapse device).line := by
    rcases hstill with hidle | hempty
    · exact elapse_idle bus hidle
    · exact elapse_empty bus (hline.symm ▸ hempty)
  rw [peri_set_bits_line, if_neg hkeeps, hagain, hline]

/-- `activate` leaves the device active with empty FIFOs. -/
theorem activate_exchanging (tbuf rbuf len : ℕ) {before : Transfer (Spi0 σ)}
    (hidle : ¬ isSet before.device.control Cs.TA) :
    Exchanging bus before.memory before.device.line.partner tbuf rbuf len
      (activate bus.spi0 before) := by
  let cleared := bus.spi0.peri_set_bits .CS Cs.CLEAR Cs.CLEAR before.device
  have hclears : isSet (bus.changed Cs.CLEAR Cs.CLEAR before.device) Cs.CLEAR := by
    rw [isSet_clear_iff, getLsbD_changed bus _ _ (by decide), if_pos (by decide)]
    exact .inl (by decide)
  have hclearedLine : cleared.line = ⟨[], [], [], before.device.line.partner⟩ := by
    have hagain : ¬ isSet (bus.elapse before.device).control Cs.TA := hidle
    change (bus.spi0.peri_set_bits .CS Cs.CLEAR Cs.CLEAR before.device).line = _
    rw [peri_set_bits_line, if_pos hclears, elapse_idle bus hagain, elapse_idle bus hidle]
  have hclearedIdle : ¬ isSet cleared.control Cs.TA := by
    rw [isSet_ta_control_iff, if_neg (by decide)]
    exact hidle
  have hkeeps : ¬ isSet (bus.changed Cs.TA Cs.TA cleared) Cs.CLEAR := by
    rw [isSet_clear_changed_iff bus _ (by decide)]
    exact not_isSet_clear bus Cs.CLEAR Cs.CLEAR
  have hline : (activate bus.spi0 before).device.line =
      ⟨[], [], [], before.device.line.partner⟩ := by
    rw [← hclearedLine]
    exact peri_set_bits_keeps bus Cs.TA Cs.TA hkeeps (.inl hclearedIdle)
  refine ⟨?_, ?_, ?_, Nat.zero_le _, Nat.zero_le _, fun _ _ ↦ rfl⟩
  · refine (isSet_ta_control_iff bus Cs.TA Cs.TA).mpr ?_
    rw [if_pos (by decide)]
    decide
  · exact not_isSet_clear bus Cs.TA Cs.TA
  · rw [hline]
    exact conserves_empty bus.respond _

structure Exchanged (tbuf rbuf len : ℕ) (before after : Transfer (Spi0 σ)) : Prop where
  line : after.device.line = ⟨[], [], bytes before.memory tbuf len,
    (exchange bus.respond before.device.line.partner (bytes before.memory tbuf len)).2⟩
  received : bytes after.memory rbuf len =
    (exchange bus.respond before.device.line.partner (bytes before.memory tbuf len)).1
  frame : ∀ address, (∀ i < len, address ≠ rbuf + i) →
    after.memory address = before.memory address
  idle : ¬ isSet after.device.control Cs.TA

/-- On an idle bus a transfer ends, and each side has what the other one has sent. -/
theorem spi_transfernb_exchanges (signedness : Signedness) {tbuf rbuf len : ℕ}
    (hcompatible : Compatible tbuf rbuf len) {before : Transfer (Spi0 σ)}
    (hidle : ¬ isSet before.device.control Cs.TA) :
    ∃ after, Settles (fun fuel ↦ spi_transfernb signedness bus.spi0 tbuf rbuf len fuel before)
        after ∧ Exchanged bus tbuf rbuf len before after := by
  obtain ⟨final, hloop, hfinal, hsent, hreceived⟩ := exists_exchangeLoop signedness hcompatible
    (activate_exchanging bus tbuf rbuf len hidle)
  have hconserves := hfinal.conserves
  rw [hsent, hreceived] at hconserves
  obtain ⟨hline, hanswers⟩ := hconserves.complete (by rw [length_bytes, length_bytes])
  have htx : final.device.line.tx = [] := by
    rw [hline]
  have hpolled : (final.polled bus).device.line = final.device.line := elapse_empty bus htx
  have hdone : isSet (bus.status (bus.elapse final.device)) Cs.DONE := by
    rw [isSet_done_iff]
    exact hpolled ▸ htx
  have hawait : Settles (fun fuel ↦ awaitDone bus.spi0 fuel final) (final.polled bus) :=
    @LoopSettles.settles Empty _ (fun _ ↦ _) _ _ (.of_exit (.of_eq fun _ ↦ if_pos hdone))
  have hkeeps : ¬ isSet (bus.changed 0 Cs.TA (final.polled bus).device) Cs.CLEAR := by
    rw [isSet_clear_changed_iff bus _ (by decide)]
    exact hfinal.keeps
  refine ⟨deactivate bus.spi0 (final.polled bus),
    (hloop.andThen hawait).andThen (.of_done fun _ ↦ rfl), ?_, ?_, ?_, ?_⟩
  · refine (peri_set_bits_keeps bus 0 Cs.TA hkeeps (.inr (hpolled ▸ htx))).trans ?_
    rw [hpolled, hline]
  · exact hanswers
  · intro address haddress
    exact hfinal.frame address fun i hi ↦ haddress i (hreceived ▸ hi)
  · refine (isSet_ta_control_iff bus 0 Cs.TA).not.mpr ?_
    rw [if_pos (by decide)]
    decide

/-- A slave that answers each byte with the one before it, on a line that never waits. -/
def echo : Bus Byte where
  respond previous byte := (previous, byte)
  capacity := 1
  schedule _ := 1
  capacity_pos := Nat.one_pos
  fair n := ⟨n, le_rfl, Nat.one_pos⟩

/-- Three bytes with one buffer for both directions. -/
theorem spi_transfern_exchanges_echo :
    ∃ after, Settles (fun fuel ↦ spi_transfern .unsigned echo.spi0 0 3 fuel
        ⟨⟨⟨[], [], [], 0xAA⟩, 0, 0⟩, fun address ↦ BitVec.ofNat 8 address, 0, 0⟩) after ∧
      bytes after.memory 0 3 = [0xAA, 0, 1] := by
  obtain ⟨after, hsettles, hexchanged⟩ := @spi_transfernb_exchanges Byte echo .unsigned 0 0 3
    (.inl le_rfl) ⟨⟨⟨[], [], [], 0xAA⟩, 0, 0⟩, fun address ↦ BitVec.ofNat 8 address, 0, 0⟩
    (by decide)
  exact ⟨after, hsettles, hexchanged.received⟩

end Transfers

end PiFunk.Bcm2835
