import PiFunk.CTypes
import PiFunk.Delay
import Mathlib.Logic.Function.Basic

/-!
# Software PWM and its threads

The program sets up one record for each pin and starts a thread for it, which switches the pin on
and off for as long as the record says that it is running.  To stop the pin the program takes its
record out of the list and clears `running`; the thread then frees the record.

The calls of the program follow one another, and the threads run beside them in any order.  A step
is one access of a record or a few of the same one.  `malloc` gives any memory that is free at the
time, memory that was freed before as well, and always gives some.  The sleeping of the threads is
what comes between their steps.
-/

namespace PiFunk.RpiGpio

open Delay

structure Pwm where
  gpio : ℕ
  freq : ℚ
  dutycycle : ℚ
  basetime : ℚ
  slicetime : ℚ
  req_on : Timespec
  req_off : Timespec
  running : Bool
  next : Option ℕ

/-- Microseconds split as `calculate_times` does it. -/
def timespec (usec : ℤ) : Timespec :=
  let tv_sec := BitVec.ofInt 32 (usec.tdiv 1000000)
  ⟨tv_sec, BitVec.ofInt 32 ((usec - tv_sec.toInt * 1000000) * 1000)⟩

def calculate_times (p : Pwm) : Pwm :=
  { p with
    req_on := timespec (truncate (p.dutycycle * p.slicetime * 1000))
    req_off := timespec (truncate ((100 - p.dutycycle) * p.slicetime * 1000)) }

/-- What `add_new_pwm` writes into the new record. -/
def add_new_pwm (gpio : ℕ) : Pwm :=
  calculate_times ⟨gpio, 1000, 0, 1, 1 / 100, ⟨0, 0⟩, ⟨0, 0⟩, false, none⟩

/-- A call of the program. -/
inductive Request where
  | pwm_set_duty_cycle (gpio : ℕ) (dutycycle : ℚ)
  | pwm_set_frequency (gpio : ℕ) (freq : ℚ)
  | pwm_start (gpio : ℕ)
  | pwm_stop (gpio : ℕ)
  | pwm_exists (gpio : ℕ)

/-- What a call does with the record that `find_pwm` returns. -/
inductive Work where
  | dutycycle (dutycycle : ℚ)
  | frequency (freq : ℚ)
  | start

/-- Where the program is in the call it makes, with the local variables of the function. -/
inductive Caller where
  | idle
  /-- In `remove_pwm`, at the test of the loop. -/
  | removing (gpio : ℕ) (p prev : Option ℕ)
  /-- The record `p` is out of the list. -/
  | unlinked (gpio p : ℕ) (prev : Option ℕ)
  /-- Before `temp->running = 0`. -/
  | stopping (gpio temp : ℕ) (p prev : Option ℕ)
  /-- In `find_pwm`, at the test of the loop; `p` is NULL only for an empty list. -/
  | finding (gpio : ℕ) (p : Option ℕ) (work : Work)
  /-- `find_pwm` has returned `p`. -/
  | found (p : ℕ) (work : Work)
  /-- Before `calculate_times (p)`. -/
  | calculating (p : ℕ)
  /-- Before `pthread_create`. -/
  | creating (p : ℕ)
  /-- In `pwm_exists`, at the test of the loop. -/
  | existing (gpio : ℕ) (p : Option ℕ)

/-- Where a thread is in `pwm_thread`. -/
inductive Phase where
  /-- At the test of the loop. -/
  | testing
  /-- Before it switches the pin on. -/
  | high
  /-- Before it switches the pin off. -/
  | low
  /-- Behind the loop. -/
  | cleaning
  /-- Before `free (p)`. -/
  | freeing
deriving DecidableEq

/-- The program, the records and the threads, each with the record it was started for. -/
structure System where
  memory : ℕ → Option Pwm
  pwm_list : Option ℕ
  caller : Caller
  threads : List (ℕ × Phase)
  /-- The calls of `output_gpio`. -/
  outputs : List (ℕ × Bool)

/-- An access of memory that is not allocated, or freeing it. -/
inductive Fault where
  | notAllocated
deriving DecidableEq, Repr

def System.initial : System := ⟨fun _ ↦ none, none, .idle, [], []⟩

/-- Access the record at an address. -/
def System.access (system : System) (address : ℕ) : Except Fault Pwm :=
  match system.memory address with
  | some record => .ok record
  | none => .error .notAllocated

/-- Write the record at an address. -/
def System.store (system : System) (address : ℕ) (record : Pwm) : System :=
  { system with memory := Function.update system.memory address (some record) }

/-- The program begins a call. -/
def System.call (system : System) : Request → Caller
  | .pwm_set_duty_cycle gpio dutycycle =>
    if dutycycle < 0 ∨ 100 < dutycycle then .idle
    else .finding gpio system.pwm_list (.dutycycle dutycycle)
  | .pwm_set_frequency gpio freq =>
    if freq ≤ 0 then .idle else .finding gpio system.pwm_list (.frequency freq)
  | .pwm_start gpio => .finding gpio system.pwm_list .start
  | .pwm_stop gpio => .removing gpio system.pwm_list none
  | .pwm_exists gpio => .existing gpio system.pwm_list

/-- `remove_pwm` takes a record that is for this pin out of the list. -/
def System.unlink (system : System) (gpio p : ℕ) (prev : Option ℕ) : Except Fault System := do
  let record ← system.access p
  if record.gpio = gpio then
    match prev with
    | none => .ok { system with pwm_list := record.next, caller := .unlinked gpio p prev }
    | some before =>
      let previous ← system.access before
      .ok { system.store before { previous with next := record.next } with
        caller := .unlinked gpio p prev }
  else .ok { system with caller := .removing gpio record.next (some p) }

/-- `find_pwm` at a record.  A new record goes to an address that `malloc` can give. -/
def System.find (system : System) (gpio p : ℕ) (work : Work) (malloc : ℕ) :
    Except Fault System := do
  let record ← system.access p
  if record.gpio = gpio then .ok { system with caller := .found p work }
  else
    match record.next with
    | some next => .ok { system with caller := .finding gpio (some next) work }
    | none =>
      if (system.memory malloc).isSome then .ok system
      else
        .ok { (system.store malloc (add_new_pwm gpio)).store p
            { record with next := some malloc } with
          caller := .found malloc work }

/-- What the program does with the record it has found. -/
def System.perform (system : System) (p : ℕ) (work : Work) : Except Fault System := do
  let record ← system.access p
  match work with
  | .dutycycle dutycycle =>
    .ok { system.store p { record with dutycycle } with caller := .calculating p }
  | .frequency freq =>
    .ok { system.store p { record with
        basetime := 1000 / freq, slicetime := 1000 / freq / 100 } with
      caller := .calculating p }
  | .start =>
    if record.running then .ok { system with caller := .idle }
    else .ok { system.store p { record with running := true } with caller := .creating p }

/-- The next step of the program in its call.  The rest of the arguments is what `malloc` returns
and whether `pthread_create` creates a thread. -/
def System.advance (system : System) (malloc : ℕ) (created : Bool) : Except Fault System :=
  match system.caller with
  | .idle => .ok system
  | .removing _ none _ => .ok { system with caller := .idle }
  | .removing gpio (some p) prev => system.unlink gpio p prev
  | .unlinked gpio p prev => do
    let record ← system.access p
    .ok { system with caller := .stopping gpio p record.next prev }
  | .stopping gpio temp p prev => do
    let record ← system.access temp
    .ok { system.store temp { record with running := false } with caller := .removing gpio p prev }
  | .finding gpio none work =>
    if (system.memory malloc).isSome then .ok system
    else
      .ok { system.store malloc (add_new_pwm gpio) with
        pwm_list := some malloc, caller := .found malloc work }
  | .finding gpio (some p) work => system.find gpio p work malloc
  | .found p work => system.perform p work
  | .calculating p => do
    let record ← system.access p
    .ok { system.store p (calculate_times record) with caller := .idle }
  | .creating p =>
    if created then
      .ok { system with threads := system.threads ++ [(p, .testing)], caller := .idle }
    else do
      let record ← system.access p
      .ok { system.store p { record with running := false } with caller := .idle }
  | .existing _ none => .ok { system with caller := .idle }
  | .existing gpio (some p) => do
    let record ← system.access p
    if record.gpio = gpio then .ok { system with caller := .idle }
    else .ok { system with caller := .existing gpio record.next }

/-- The next step of a thread. -/
def System.resume (system : System) (index p : ℕ) : Phase → Except Fault System
  | .testing => do
    let record ← system.access p
    .ok { system with
      threads := system.threads.set index (p, if record.running then .high else .cleaning) }
  | .high => do
    let record ← system.access p
    .ok { system with
      outputs := system.outputs ++ if 0 < record.dutycycle then [(record.gpio, true)] else []
      threads := system.threads.set index (p, .low) }
  | .low => do
    let record ← system.access p
    .ok { system with
      outputs := system.outputs ++ if record.dutycycle < 100 then [(record.gpio, false)] else []
      threads := system.threads.set index (p, .testing) }
  | .cleaning => do
    let record ← system.access p
    .ok { system with
      outputs := system.outputs ++ [(record.gpio, false)]
      threads := system.threads.set index (p, .freeing) }
  | .freeing => do
    let _ ← system.access p
    .ok { system with
      memory := Function.update system.memory p none
      threads := system.threads.eraseIdx index }

/-- Who takes the next step. -/
inductive Turn where
  /-- The program begins a call, if it is not in one. -/
  | call (request : Request)
  | program (malloc : ℕ) (created : Bool)
  | thread (index : ℕ)

def System.step (system : System) : Turn → Except Fault System
  | .call request =>
    match system.caller with
    | .idle => .ok { system with caller := system.call request }
    | _ => .ok system
  | .program malloc created => system.advance malloc created
  | .thread index =>
    match system.threads[index]? with
    | some (p, phase) => system.resume index p phase
    | none => .ok system

def System.run (system : System) : List Turn → Except Fault System
  | [] => .ok system
  | turn :: rest => system.step turn >>= fun next ↦ next.run rest

end PiFunk.RpiGpio
