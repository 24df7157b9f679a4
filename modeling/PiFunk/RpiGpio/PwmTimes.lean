import PiFunk.RpiGpio.PwmThreads
import Mathlib.Tactic.Linarith

/-!
# The times of a record

A record that the program is not about to recalculate has the times of its own duty cycle and its
own period, whatever calls were made for it and however they take turns with the threads.  The two
times of such a record are cut to whole microseconds, so that together they fall short of the period
by less than two.
-/

namespace PiFunk.RpiGpio

open Delay

/-! ## Microseconds -/

/-- The seconds and nanoseconds are those of the microseconds, up to the last second that an `int`
can hold. -/
theorem nanos_timespec {usec : ℤ} (hzero : 0 ≤ usec) (hlast : usec < 2147483648 * 1000000) :
    (timespec usec).Normalised ∧ (timespec usec).nanos = usec * 1000 := by
  have hdiv : usec.tdiv 1000000 = usec / 1000000 := Int.tdiv_eq_ediv_of_nonneg hzero
  have hsec : (timespec usec).tv_sec.toInt = usec / 1000000 := by
    change (BitVec.ofInt 32 (usec.tdiv 1000000)).toInt = usec / 1000000
    rw [hdiv, BitVec.toInt_ofInt_eq_self (by decide) (by omega) (by omega)]
  have hnsec : (timespec usec).tv_nsec.toInt = (usec - usec / 1000000 * 1000000) * 1000 := by
    change (BitVec.ofInt 32 ((usec - (timespec usec).tv_sec.toInt * 1000000) * 1000)).toInt =
      (usec - usec / 1000000 * 1000000) * 1000
    rw [hsec, BitVec.toInt_ofInt_eq_self (by decide) (by omega) (by omega)]
  constructor
  · unfold Timespec.Normalised
    rw [hsec, hnsec]
    omega
  · rw [Timespec.nanos, hsec, hnsec]
    ring

/-- The fraction of a microsecond is lost. -/
theorem nanos_truncate {usec : ℚ} (hzero : 0 ≤ usec) (hlast : usec < 2147483648 * 1000000) :
    (timespec (truncate usec)).Normalised ∧
      ((timespec (truncate usec)).nanos : ℚ) ≤ usec * 1000 ∧
      usec * 1000 < (timespec (truncate usec)).nanos + 1000 := by
  have hfloor := Int.floor_le usec
  have hnext := Int.lt_floor_add_one usec
  have hfits : ⌊usec⌋ < 2147483648 * 1000000 := by
    rw [Int.floor_lt]
    push_cast
    linarith
  rw [truncate_of_nonneg hzero]
  obtain ⟨hnormalised, hnanos⟩ := nanos_timespec (Int.floor_nonneg.mpr hzero) hfits
  have hcast : ((timespec ⌊usec⌋).nanos : ℚ) = ⌊usec⌋ * 1000 := by
    rw [hnanos]
    push_cast
    ring
  refine ⟨hnormalised, ?_, ?_⟩
  · rw [hcast]
    linarith
  · rw [hcast]
    linarith

/-- The period in microseconds. -/
def Pwm.period (record : Pwm) : ℚ := 100 * record.slicetime * 1000

/-- A duty cycle in percent, and a period. -/
structure Pwm.Valid (record : Pwm) : Prop where
  dutycycle_nonneg : 0 ≤ record.dutycycle
  dutycycle_le : record.dutycycle ≤ 100
  slicetime_pos : 0 < record.slicetime

/-- The times of a record are right to the microsecond. -/
structure Pwm.Timed (record : Pwm) : Prop where
  on_normalised : record.req_on.Normalised
  off_normalised : record.req_off.Normalised
  on_le : (record.req_on.nanos : ℚ) ≤ record.dutycycle / 100 * record.period * 1000
  lt_on : record.dutycycle / 100 * record.period * 1000 < record.req_on.nanos + 1000
  period_le : (record.req_on.nanos + record.req_off.nanos : ℚ) ≤ record.period * 1000
  lt_period : record.period * 1000 < record.req_on.nanos + record.req_off.nanos + 2000

/-- `calculate_times` sets the times right. -/
theorem timed_calculate_times {record : Pwm} (hvalid : record.Valid)
    (hlast : record.period < 2147483648 * 1000000) : (calculate_times record).Timed := by
  obtain ⟨hzero, hfull, hslice⟩ := hvalid
  have hrest : 0 ≤ 100 - record.dutycycle := by linarith
  have hon : 0 ≤ record.dutycycle * record.slicetime * 1000 := by positivity
  have hoff : 0 ≤ (100 - record.dutycycle) * record.slicetime * 1000 := by positivity
  have hsum : record.dutycycle * record.slicetime * 1000 +
      (100 - record.dutycycle) * record.slicetime * 1000 = record.period := by
    rw [Pwm.period]
    ring
  have hduty : record.dutycycle / 100 * record.period =
      record.dutycycle * record.slicetime * 1000 := by
    rw [Pwm.period]
    ring
  obtain ⟨honnormalised, honle, hlton⟩ := nanos_truncate hon (by linarith)
  obtain ⟨hoffnormalised, hoffle, hltoff⟩ := nanos_truncate hoff (by linarith)
  have hperiod : (calculate_times record).period = record.period := rfl
  have hdutycycle : (calculate_times record).dutycycle = record.dutycycle := rfl
  have hreqon : (calculate_times record).req_on =
      timespec (truncate (record.dutycycle * record.slicetime * 1000)) := rfl
  have hreqoff : (calculate_times record).req_off =
      timespec (truncate ((100 - record.dutycycle) * record.slicetime * 1000)) := rfl
  exact {
    on_normalised := honnormalised
    off_normalised := hoffnormalised
    on_le := by
      rw [hperiod, hdutycycle, hduty, hreqon]
      exact honle
    lt_on := by
      rw [hperiod, hdutycycle, hduty, hreqon]
      exact hlton
    period_le := by
      rw [hperiod, ← hsum, hreqon, hreqoff]
      linarith
    lt_period := by
      rw [hperiod, ← hsum, hreqon, hreqoff]
      linarith }

/-! ## Runs -/

/-- What a call asks for is a duty cycle or a frequency. -/
def Work.Valid : Work → Prop
  | .dutycycle percent => 0 ≤ percent ∧ percent ≤ 100
  | .frequency freq => 0 < freq
  | .start => True

/-- So is what is left of a call to be done. -/
def Caller.Valid : Caller → Prop
  | .finding _ _ work => work.Valid
  | .found _ work => work.Valid
  | _ => True

/-- The record has the times that it would be given. -/
def Pwm.UpToDate (record : Pwm) : Prop :=
  (calculate_times record).req_on = record.req_on ∧
    (calculate_times record).req_off = record.req_off

/-- So it is, or it is the one that the program is going to calculate the times for. -/
def Fresh (caller : Caller) (address : ℕ) (record : Pwm) : Prop :=
  record.Valid ∧ (record.UpToDate ∨ caller = .calculating address)

/-- All records are fresh. -/
structure System.Timely (system : System) : Prop where
  caller : system.caller.Valid
  fresh : ∀ address record, system.memory address = some record →
    Fresh system.caller address record

variable {system next : System}

theorem upToDate_calculate_times (record : Pwm) : (calculate_times record).UpToDate := ⟨rfl, rfl⟩

theorem Pwm.UpToDate.timed {record : Pwm} (hdate : record.UpToDate) (hvalid : record.Valid)
    (hlast : record.period < 2147483648 * 1000000) : record.Timed := by
  obtain ⟨hon, hoff⟩ := hdate
  have hsame : calculate_times record = record := by
    calc calculate_times record
        = { record with
            req_on := (calculate_times record).req_on
            req_off := (calculate_times record).req_off } := rfl
      _ = record := by rw [hon, hoff]
  have htimed := timed_calculate_times hvalid hlast
  rwa [hsame] at htimed

theorem Pwm.Valid.calculate_times {record : Pwm} (hvalid : record.Valid) :
    (calculate_times record).Valid :=
  ⟨hvalid.dutycycle_nonneg, hvalid.dutycycle_le, hvalid.slicetime_pos⟩

theorem valid_add_new_pwm (gpio : ℕ) : (add_new_pwm gpio).Valid := by
  constructor
  · exact le_refl (0 : ℚ)
  · change (0 : ℚ) ≤ 100
    norm_num
  · change (0 : ℚ) < 1 / 100
    norm_num

theorem fresh_add_new_pwm (caller : Caller) (gpio address : ℕ) :
    Fresh caller address (add_new_pwm gpio) :=
  ⟨valid_add_new_pwm gpio, .inl (upToDate_calculate_times _)⟩

/-- The program moves on without a write, when it was not going to calculate. -/
theorem System.Timely.move (htimely : system.Timely) {caller : Caller} (hvalid : caller.Valid)
    (hother : ∀ p, system.caller ≠ .calculating p) : ({ system with caller } : System).Timely where
  caller := hvalid
  fresh := by
    intro address record hrecord
    obtain ⟨hrecordvalid, hsame | hcalculating⟩ := htimely.fresh address record hrecord
    · exact ⟨hrecordvalid, .inl hsame⟩
    · exact absurd hcalculating (hother address)

theorem System.Timely.store (htimely : system.Timely) {p : ℕ} {record : Pwm} {caller : Caller}
    (hvalid : caller.Valid) (hfresh : Fresh caller p record)
    (hother : ∀ address ≠ p, system.caller ≠ .calculating address) :
    ({ system.store p record with caller } : System).Timely where
  caller := hvalid
  fresh := by
    intro address found hfound
    have hupdate : Function.update system.memory p (some record) address = some found := hfound
    by_cases heq : address = p
    · rw [heq, Function.update_self, Option.some.injEq] at hupdate
      rw [heq, ← hupdate]
      exact hfresh
    · rw [Function.update_of_ne heq] at hupdate
      obtain ⟨hfoundvalid, hsame | hcalculating⟩ := htimely.fresh address found hupdate
      · exact ⟨hfoundvalid, .inl hsame⟩
      · exact absurd hcalculating (hother address heq)

/-- An access that succeeds finds the record. -/
theorem memory_of_access {address : ℕ} {record : Pwm}
    (haccess : system.access address = .ok record) : system.memory address = some record := by
  unfold System.access at haccess
  cases hrecord : system.memory address with
  | none =>
    rw [hrecord] at haccess
    cases haccess
  | some found =>
    rw [hrecord] at haccess
    cases haccess
    rfl

theorem exists_of_bind {address : ℕ} {rest : Pwm → Except Fault System}
    (hnext : (system.access address >>= rest) = .ok next) :
    ∃ record, system.memory address = some record ∧ rest record = .ok next := by
  cases haccess : system.access address with
  | error fault =>
    rw [haccess] at hnext
    cases hnext
  | ok record =>
    rw [haccess] at hnext
    exact ⟨record, memory_of_access haccess, hnext⟩

/-- A record that the program is not going to calculate has its times. -/
theorem System.Timely.upToDate (htimely : system.Timely) {address : ℕ} {record : Pwm}
    (hrecord : system.memory address = some record)
    (hother : system.caller ≠ .calculating address) : record.UpToDate :=
  (htimely.fresh address record hrecord).2.resolve_right hother

theorem System.Timely.unlink (htimely : system.Timely) {gpio p : ℕ} {prev : Option ℕ}
    (hother : ∀ address, system.caller ≠ .calculating address)
    (hnext : system.unlink gpio p prev = .ok next) : next.Timely := by
  obtain ⟨record, hrecord, hnext⟩ := exists_of_bind hnext
  split at hnext
  · cases prev with
    | none =>
      cases hnext
      have hmove : ({ system with caller := .unlinked gpio p none } : System).Timely :=
        htimely.move trivial hother
      exact { hmove with }
    | some before =>
      obtain ⟨previous, hprevious, hnext⟩ := exists_of_bind hnext
      cases hnext
      have hvalid := (htimely.fresh before previous hprevious).1
      have hdate := htimely.upToDate hprevious (hother before)
      exact htimely.store trivial ⟨{ hvalid with }, .inl hdate⟩ fun address _ ↦ hother address
  · cases hnext
    exact htimely.move trivial hother

theorem System.Timely.find (htimely : system.Timely) {gpio p malloc : ℕ} {work : Work}
    (hwork : work.Valid) (hother : ∀ address, system.caller ≠ .calculating address)
    (hnext : system.find gpio p work malloc = .ok next) : next.Timely := by
  obtain ⟨record, hrecord, hnext⟩ := exists_of_bind hnext
  split at hnext
  · cases hnext
    exact htimely.move hwork hother
  · split at hnext
    · cases hnext
      exact htimely.move hwork hother
    · split at hnext
      · cases hnext
        exact htimely
      · cases hnext
        have hvalid := (htimely.fresh p record hrecord).1
        have hdate := htimely.upToDate hrecord (hother p)
        have hnew : (system.store malloc (add_new_pwm gpio)).Timely :=
          htimely.store htimely.caller (fresh_add_new_pwm _ gpio malloc) fun address _ ↦
            hother address
        exact hnew.store hwork ⟨{ hvalid with }, .inl hdate⟩ fun address _ ↦ hother address

theorem System.Timely.perform (htimely : system.Timely) {p : ℕ} {work : Work} (hwork : work.Valid)
    (hother : ∀ address, system.caller ≠ .calculating address)
    (hnext : system.perform p work = .ok next) : next.Timely := by
  obtain ⟨record, hrecord, hnext⟩ := exists_of_bind hnext
  have hvalid := (htimely.fresh p record hrecord).1
  cases work with
  | dutycycle percent =>
    cases hnext
    exact htimely.store trivial ⟨⟨hwork.1, hwork.2, hvalid.slicetime_pos⟩, .inr rfl⟩
      fun address _ ↦ hother address
  | frequency freq =>
    cases hnext
    have hfreq : 0 < freq := hwork
    have hslice : 0 < 1000 / freq / 100 := by positivity
    exact htimely.store trivial
      ⟨⟨hvalid.dutycycle_nonneg, hvalid.dutycycle_le, hslice⟩, .inr rfl⟩ fun address _ ↦
        hother address
  | start =>
    dsimp only at hnext
    split at hnext
    · cases hnext
      exact htimely.move trivial hother
    · cases hnext
      have hdate := htimely.upToDate hrecord (hother p)
      exact htimely.store trivial ⟨{ hvalid with }, .inl hdate⟩ fun address _ ↦ hother address

/-- A step of the program that is not going to calculate. -/
theorem System.Timely.advance_of_ne (htimely : system.Timely) {malloc : ℕ} {created : Bool}
    (hother : ∀ address, system.caller ≠ .calculating address)
    (hnext : system.advance malloc created = .ok next) : next.Timely := by
  unfold System.advance at hnext
  have hvalid := htimely.caller
  cases hcaller : system.caller with
  | calculating p => exact absurd hcaller (hother p)
  | idle =>
    rw [hcaller] at hnext
    cases hnext
    exact htimely
  | removing gpio p prev =>
    rw [hcaller] at hnext
    cases p with
    | none =>
      cases hnext
      exact htimely.move trivial hother
    | some p => exact htimely.unlink hother hnext
  | unlinked gpio p prev =>
    rw [hcaller] at hnext
    obtain ⟨record, -, hnext⟩ := exists_of_bind hnext
    cases hnext
    exact htimely.move trivial hother
  | stopping gpio temp p prev =>
    rw [hcaller] at hnext
    obtain ⟨record, hrecord, hnext⟩ := exists_of_bind hnext
    cases hnext
    have hrecordvalid := (htimely.fresh temp record hrecord).1
    have hdate := htimely.upToDate hrecord (hother temp)
    exact htimely.store trivial ⟨{ hrecordvalid with }, .inl hdate⟩ fun address _ ↦ hother address
  | finding gpio p work =>
    rw [hcaller] at hnext hvalid
    cases p with
    | none =>
      dsimp only at hnext
      split at hnext
      · cases hnext
        exact htimely
      · cases hnext
        have hstore : ({ system.store malloc (add_new_pwm gpio) with
            caller := .found malloc work } : System).Timely :=
          htimely.store hvalid (fresh_add_new_pwm _ gpio malloc) fun address _ ↦ hother address
        exact { hstore with }
    | some p => exact htimely.find hvalid hother hnext
  | found p work =>
    rw [hcaller] at hnext hvalid
    exact htimely.perform hvalid hother hnext
  | creating p =>
    rw [hcaller] at hnext
    dsimp only at hnext
    split at hnext
    · cases hnext
      have hmove : ({ system with caller := .idle } : System).Timely :=
        htimely.move trivial hother
      exact { hmove with }
    · obtain ⟨record, hrecord, hnext⟩ := exists_of_bind hnext
      cases hnext
      have hrecordvalid := (htimely.fresh p record hrecord).1
      have hdate := htimely.upToDate hrecord (hother p)
      exact htimely.store trivial ⟨{ hrecordvalid with }, .inl hdate⟩ fun address _ ↦
        hother address
  | existing gpio p =>
    rw [hcaller] at hnext
    cases p with
    | none =>
      cases hnext
      exact htimely.move trivial hother
    | some p =>
      obtain ⟨record, -, hnext⟩ := exists_of_bind hnext
      split at hnext
      · cases hnext
        exact htimely.move trivial hother
      · cases hnext
        exact htimely.move trivial hother

theorem System.Timely.advance (htimely : system.Timely) {malloc : ℕ} {created : Bool}
    (hnext : system.advance malloc created = .ok next) : next.Timely := by
  by_cases hcalculating : ∃ p, system.caller = .calculating p
  · obtain ⟨p, hcaller⟩ := hcalculating
    rw [System.advance, hcaller] at hnext
    obtain ⟨record, hrecord, hnext⟩ := exists_of_bind hnext
    cases hnext
    have hvalid := (htimely.fresh p record hrecord).1
    refine htimely.store trivial
      ⟨hvalid.calculate_times, .inl (upToDate_calculate_times record)⟩ fun address hne heq ↦ ?_
    exact hne (Caller.calculating.inj (hcaller.symm.trans heq)).symm
  · exact htimely.advance_of_ne (not_exists.mp hcalculating) hnext

/-- A step of a thread, which only reads the records and frees its own. -/
theorem System.Timely.resume (htimely : system.Timely) {index p : ℕ} {phase : Phase}
    (hnext : system.resume index p phase = .ok next) : next.Timely := by
  cases phase with
  | testing =>
    obtain ⟨record, -, hnext⟩ := exists_of_bind hnext
    cases hnext
    exact { htimely with }
  | high =>
    obtain ⟨record, -, hnext⟩ := exists_of_bind hnext
    cases hnext
    exact { htimely with }
  | low =>
    obtain ⟨record, -, hnext⟩ := exists_of_bind hnext
    cases hnext
    exact { htimely with }
  | cleaning =>
    obtain ⟨record, -, hnext⟩ := exists_of_bind hnext
    cases hnext
    exact { htimely with }
  | freeing =>
    obtain ⟨record, -, hnext⟩ := exists_of_bind hnext
    cases hnext
    refine { htimely with fresh := fun address found hfound ↦ ?_ }
    have hupdate : Function.update system.memory p none address = some found := hfound
    by_cases heq : address = p
    · rw [heq, Function.update_self] at hupdate
      cases hupdate
    · rw [Function.update_of_ne heq] at hupdate
      exact htimely.fresh address found hupdate

/-- Calls with other numbers end at once. -/
theorem valid_call (system : System) (request : Request) : (system.call request).Valid := by
  cases request with
  | pwm_set_duty_cycle gpio dutycycle =>
    unfold System.call
    dsimp only
    split
    · exact trivial
    · rename_i hrange
      rw [not_or, not_lt, not_lt] at hrange
      exact hrange
  | pwm_set_frequency gpio freq =>
    unfold System.call
    dsimp only
    split
    · exact trivial
    · rename_i hpositive
      exact not_le.mp hpositive
  | pwm_start gpio => exact trivial
  | pwm_stop gpio => exact trivial
  | pwm_exists gpio => exact trivial

theorem System.Timely.step (htimely : system.Timely) {turn : Turn}
    (hnext : system.step turn = .ok next) : next.Timely := by
  cases turn with
  | call request =>
    unfold System.step at hnext
    dsimp only at hnext
    split at hnext
    · rename_i hidle
      cases hnext
      exact htimely.move (valid_call system request) (by simp [hidle])
    · cases hnext
      exact htimely
  | program malloc created => exact htimely.advance hnext
  | thread index =>
    unfold System.step at hnext
    dsimp only at hnext
    split at hnext
    · exact htimely.resume hnext
    · cases hnext
      exact htimely

theorem System.Timely.run (htimely : system.Timely) {schedule : List Turn}
    (hrun : system.run schedule = .ok next) : next.Timely := by
  induction schedule generalizing system with
  | nil =>
    cases hrun
    exact htimely
  | cons turn rest ih =>
    rw [System.run] at hrun
    cases hstep : system.step turn with
    | error fault =>
      rw [hstep] at hrun
      cases hrun
    | ok middle =>
      rw [hstep] at hrun
      exact ih (htimely.step hstep) hrun

theorem System.timely_initial : System.initial.Timely where
  caller := trivial
  fresh := by
    intro address record hrecord
    cases hrecord

/-- However the calls and the threads take turns, every record has a duty cycle in percent and a
period, and unless the program is going to calculate its times, they are right to the microsecond,
for periods up to the last second that an `int` can hold. -/
theorem System.threads_timed (schedule : List Turn) :
    ∃ system : System, System.initial.run schedule = .ok system ∧
      ∀ address record, system.memory address = some record → record.Valid ∧
        (system.caller ≠ .calculating address → record.period < 2147483648 * 1000000 →
          record.Timed) := by
  obtain ⟨system, hrun, -⟩ := System.safe_run System.orderly_initial schedule
  have htimely := System.timely_initial.run hrun
  refine ⟨system, hrun, fun address record hrecord ↦ ?_⟩
  have hvalid := (htimely.fresh address record hrecord).1
  exact ⟨hvalid, fun hother hlast ↦ (htimely.upToDate hrecord hother).timed hvalid hlast⟩

end PiFunk.RpiGpio
