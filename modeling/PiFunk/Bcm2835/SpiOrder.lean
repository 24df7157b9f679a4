import PiFunk.Bcm2835.Spi

/-!
# The order of a transfer

A transfer may meet any device, one that never gets ready, or one that answers without being asked.
Whatever it does, the driver hands over the bytes of the transmit buffer one after the other, none
of them twice and none left out, it stores what it reads in the order it reads it, and it stays
inside the receive buffer.  This holds at every point of a run, also of one that never ends.
-/

namespace PiFunk.Bcm2835

open Display FuelLoop

variable {δ : Type*}

/-- The buffers have no byte in common. -/
def Apart (tbuf rbuf len : ℕ) : Prop := rbuf + len ≤ tbuf ∨ tbuf + len ≤ rbuf

/-- The FIFO was given the first bytes of the transmit buffer, one after the other, and the bytes
read from it are the first ones of the receive buffer; no other byte of the memory has changed. -/
structure InOrder (signedness : Signedness) (memory : ℕ → Byte) (tbuf rbuf len : ℕ)
    (transfer : Transfer (δ × List (Access SpiRegister))) : Prop where
  written : written .FIFO transfer.device.2 =
    (bytes memory tbuf transfer.TXCnt).map (promote signedness)
  fetched : fetched .FIFO transfer.device.2 = bytes transfer.memory rbuf transfer.RXCnt
  sent_le : transfer.TXCnt ≤ len
  received_le : transfer.RXCnt ≤ len
  frame : ∀ address, (∀ i < len, address ≠ rbuf + i) → transfer.memory address = memory address

section InOrder

variable {signedness : Signedness} (peripheral : Peripheral SpiRegister δ) {memory : ℕ → Byte}
  {tbuf rbuf len : ℕ} {transfer : Transfer (δ × List (Access SpiRegister))}

/-- Accesses to CS leave the FIFO alone. -/
theorem InOrder.of_device (horder : InOrder signedness memory tbuf rbuf len transfer)
    {device : δ × List (Access SpiRegister)}
    (hwritten : Bcm2835.written .FIFO device.2 = Bcm2835.written .FIFO transfer.device.2)
    (hfetched : Bcm2835.fetched .FIFO device.2 = Bcm2835.fetched .FIFO transfer.device.2) :
    InOrder signedness memory tbuf rbuf len { transfer with device } where
  written := hwritten.trans horder.written
  fetched := hfetched.trans horder.fetched
  sent_le := horder.sent_le
  received_le := horder.received_le
  frame := horder.frame

theorem InOrder.poll (horder : InOrder signedness memory tbuf rbuf len transfer) :
    InOrder signedness memory tbuf rbuf len (poll peripheral.logged transfer).2 :=
  horder.of_device (by simp [Bcm2835.written]) (by simp [Bcm2835.fetched])

/-- Changes of CS leave the FIFO alone, too. -/
theorem changes_peri_set_bits (value mask : CInt) (device : δ × List (Access SpiRegister)) :
    Bcm2835.written .FIFO (peripheral.logged.peri_set_bits .CS value mask device).2 =
        Bcm2835.written .FIFO device.2 ∧
      Bcm2835.fetched .FIFO (peripheral.logged.peri_set_bits .CS value mask device).2 =
        Bcm2835.fetched .FIFO device.2 := by
  simp [Peripheral.peri_set_bits, Peripheral.logged, Bcm2835.written, Bcm2835.fetched]

theorem InOrder.send (horder : InOrder signedness memory tbuf rbuf len transfer)
    (hapart : Apart tbuf rbuf len) (hmore : transfer.TXCnt < len) :
    InOrder signedness memory tbuf rbuf len (send signedness peripheral.logged tbuf transfer) where
  written := by
    have hbyte : transfer.memory (tbuf + transfer.TXCnt) = memory (tbuf + transfer.TXCnt) := by
      refine horder.frame _ fun i hi ↦ ?_
      rcases hapart with hbelow | habove
      · omega
      · omega
    change Bcm2835.written .FIFO (transfer.device.2 ++ [.writeTo .FIFO _]) =
      (bytes memory tbuf (transfer.TXCnt + 1)).map _
    rw [bytes_succ, List.map_append, ← horder.written, hbyte]
    simp [Bcm2835.written]
  fetched := by
    refine Eq.trans ?_ horder.fetched
    simp [Bcm2835.send, Peripheral.logged, Bcm2835.fetched]
  sent_le := hmore
  received_le := horder.received_le
  frame := horder.frame

theorem InOrder.receive (horder : InOrder signedness memory tbuf rbuf len transfer)
    (hmore : transfer.RXCnt < len) :
    InOrder signedness memory tbuf rbuf len (receive peripheral.logged rbuf transfer) where
  written := by
    refine Eq.trans ?_ horder.written
    simp [Bcm2835.receive, Peripheral.logged, Bcm2835.written]
  fetched := by
    change Bcm2835.fetched .FIFO (transfer.device.2 ++ [.readFrom .FIFO _]) =
      bytes (Function.update transfer.memory (rbuf + transfer.RXCnt) _) rbuf (transfer.RXCnt + 1)
    rw [bytes_update, ← horder.fetched]
    simp [Bcm2835.fetched]
  sent_le := horder.sent_le
  received_le := hmore
  frame := by
    intro address haddress
    refine (Function.update_of_ne (haddress transfer.RXCnt hmore) _ _).trans ?_
    exact horder.frame address haddress

/-! ## The loops -/

theorem InOrder.sendLoop (horder : InOrder signedness memory tbuf rbuf len transfer)
    (hapart : Apart tbuf rbuf len) (fuel : ℕ) :
    InOrder signedness memory tbuf rbuf len
      (loop (sendIteration signedness peripheral.logged tbuf len) fuel transfer).state := by
  refine loop_state_of_invariant _ (fun reached hreached ↦ ?_) horder fuel
  have hpolled := hreached.poll peripheral
  unfold sendIteration
  dsimp only
  split_ifs with hguard
  · exact hpolled.send peripheral hapart hguard.2
  · exact hpolled

theorem InOrder.receiveLoop (horder : InOrder signedness memory tbuf rbuf len transfer)
    (fuel : ℕ) :
    InOrder signedness memory tbuf rbuf len
      (loop (receiveIteration peripheral.logged rbuf len) fuel transfer).state := by
  refine loop_state_of_invariant _ (fun reached hreached ↦ ?_) horder fuel
  have hpolled := hreached.poll peripheral
  unfold receiveIteration
  dsimp only
  split_ifs with hguard
  · exact hpolled.receive peripheral hguard.2
  · exact hpolled

theorem InOrder.exchangeLoop (horder : InOrder signedness memory tbuf rbuf len transfer)
    (hapart : Apart tbuf rbuf len) (fuel : ℕ) :
    InOrder signedness memory tbuf rbuf len
      (exchangeLoop signedness peripheral.logged tbuf rbuf len fuel transfer).state := by
  refine loop_state_of_invariant _ (fun reached hreached ↦ ?_) horder fuel
  have hround : InOrder signedness memory tbuf rbuf len
      (exchangeRound signedness peripheral.logged tbuf rbuf len fuel reached).state :=
    Outcome.andThen_state_of_invariant _ (hreached.sendLoop peripheral hapart fuel)
      fun next hnext ↦ hnext.receiveLoop peripheral fuel
  rw [state_whileIteration]
  split_ifs
  · exact hround
  · exact hreached

theorem InOrder.awaitDone (horder : InOrder signedness memory tbuf rbuf len transfer) (fuel : ℕ) :
    InOrder signedness memory tbuf rbuf len (awaitDone peripheral.logged fuel transfer).state := by
  refine loop_state_of_invariant _ (fun reached hreached ↦ ?_) horder fuel
  have hpolled := hreached.poll peripheral
  dsimp only
  split_ifs
  · exact hpolled
  · exact hpolled

end InOrder

/-- A loop over the counters ends with both of them at the length. -/
theorem counts_of_exchangeLoop (signedness : Signedness) (peripheral : Peripheral SpiRegister δ)
    {tbuf rbuf len fuel : ℕ} {start final : Transfer δ} (hsent : final.TXCnt ≤ len)
    (hreceived : final.RXCnt ≤ len)
    (hdone : exchangeLoop signedness peripheral tbuf rbuf len fuel start = .done final) :
    final.TXCnt = len ∧ final.RXCnt = len := by
  have hguard : ¬ (final.TXCnt < len ∨ final.RXCnt < len) := by
    refine loop_done_of_invariant (fun _ ↦ True)
      (fun reached ↦ ¬ (reached.TXCnt < len ∨ reached.RXCnt < len)) (fun _ _ _ _ ↦ trivial) ?_
      trivial hdone
    intro state reached _ hexit
    unfold whileIteration at hexit
    split_ifs at hexit with htrue
    · cases hbody : exchangeRound signedness peripheral tbuf rbuf len fuel state <;>
        rw [hbody] at hexit <;> cases hexit
    · cases hexit
      simpa using htrue
  omega

/-- In whatever state a transfer is looked at, nothing is out of order; and when it has ended, both
counts have reached the length. -/
theorem spi_transfernb_inOrder (signedness : Signedness) (peripheral : Peripheral SpiRegister δ)
    {tbuf rbuf len : ℕ} (hapart : Apart tbuf rbuf len) (device : δ) (memory : ℕ → Byte)
    (fuel : ℕ) (TXCnt RXCnt : ℕ) :
    InOrder signedness memory tbuf rbuf len (spi_transfernb signedness peripheral.logged tbuf rbuf
        len fuel ⟨(device, []), memory, TXCnt, RXCnt⟩).state ∧
      ∀ after, spi_transfernb signedness peripheral.logged tbuf rbuf len fuel
          ⟨(device, []), memory, TXCnt, RXCnt⟩ = .done after →
        after.TXCnt = len ∧ after.RXCnt = len := by
  let start : Transfer (δ × List (Access SpiRegister)) := ⟨(device, []), memory, TXCnt, RXCnt⟩
  have hstart : InOrder signedness memory tbuf rbuf len (activate peripheral.logged start) := by
    obtain ⟨hwritten, hfetched⟩ :=
      changes_peri_set_bits peripheral Cs.CLEAR Cs.CLEAR start.device
    obtain ⟨hwritten', hfetched'⟩ := changes_peri_set_bits peripheral Cs.TA Cs.TA
      (peripheral.logged.peri_set_bits .CS Cs.CLEAR Cs.CLEAR start.device)
    exact ⟨hwritten'.trans hwritten, hfetched'.trans hfetched, Nat.zero_le _, Nat.zero_le _,
      fun _ _ ↦ rfl⟩
  have hloop := hstart.exchangeLoop peripheral hapart fuel
  have hdeactivate (final : Transfer (δ × List (Access SpiRegister)))
      (hfinal : InOrder signedness memory tbuf rbuf len final) :
      InOrder signedness memory tbuf rbuf len (deactivate peripheral.logged final) :=
    hfinal.of_device (changes_peri_set_bits peripheral 0 Cs.TA _).1
      (changes_peri_set_bits peripheral 0 Cs.TA _).2
  constructor
  · refine Outcome.andThen_state_of_invariant _ (Outcome.andThen_state_of_invariant _ hloop ?_)
      hdeactivate
    exact fun final hfinal ↦ hfinal.awaitDone peripheral fuel
  · intro after hdone
    obtain ⟨ready, hready, hafter⟩ := (Outcome.andThen_eq_done_iff _ _ _).mp hdone
    obtain ⟨final, hfinal, hawait⟩ := (Outcome.andThen_eq_done_iff _ _ _).mp hready
    have hcounts : final.TXCnt = len ∧ final.RXCnt = len := by
      rw [hfinal] at hloop
      exact counts_of_exchangeLoop signedness _ hloop.sent_le hloop.received_le hfinal
    have hkept : ready.TXCnt = len ∧ ready.RXCnt = len := by
      refine loop_done_of_invariant (fun reached ↦ reached.TXCnt = len ∧ reached.RXCnt = len)
        (fun reached ↦ reached.TXCnt = len ∧ reached.RXCnt = len) ?_ ?_ hcounts hawait
      · intro state next hstate hagain
        dsimp only at hagain
        split_ifs at hagain
        cases hagain
        exact hstate
      · intro state next hstate hexit
        dsimp only at hexit
        split_ifs at hexit
        cases hexit
        exact hstate
    cases hafter
    exact hkept

/-- A device that sends back what it is sent. -/
def mirror : Peripheral SpiRegister (List CInt) where
  read
    | .CS, queue => (Cs.TXD ||| Cs.DONE ||| if queue = [] then 0 else Cs.RXD, queue)
    | .FIFO, queue => (queue.headD 0, queue.tail)
  write
    | .CS, _, queue => queue
    | .FIFO, value, queue => queue ++ [value]

/-- Four bytes are sent to it and received back. -/
theorem spi_transfernb_inOrder_mirror :
    let memory : ℕ → Byte := fun address ↦ BitVec.ofNat 8 address + 1
    let outcome := spi_transfernb .unsigned mirror.logged 0 4 4 20 ⟨([], []), memory, 0, 0⟩
    InOrder .unsigned memory 0 4 4 outcome.state ∧
      (∀ after, outcome = .done after → after.TXCnt = 4 ∧ after.RXCnt = 4) ∧
      outcome.state.TXCnt = 4 ∧ bytes outcome.state.memory 4 4 = [1, 2, 3, 4] := by
  intro memory outcome
  have hapart : Apart 0 4 4 := .inr (by decide)
  obtain ⟨horder, hcounts⟩ := spi_transfernb_inOrder .unsigned mirror hapart [] memory 20 0 0
  exact ⟨horder, hcounts, by decide, by decide⟩

end PiFunk.Bcm2835
