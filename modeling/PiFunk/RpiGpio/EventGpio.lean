import PiFunk.CTypes
import Mathlib.Data.List.Basic
import Mathlib.Logic.Function.Basic

/-!
# Edge detection

The functions behind `add_event_detect`, `add_event_callback`, `remove_event_detect`,
`event_detected`, `wait_for_edge` and `cleanup` of the Python module, and the thread that waits for
events.  The program makes one call at a time, from one thread, and not from within a callback; an
event is handled between two of its calls or while it waits for an edge.  The linked lists are lists
here, and `malloc` always gives memory.  The answers of the kernel are arguments.
-/

namespace PiFunk.RpiGpio

/-- The edges that the calls accept. -/
inductive Edge where
  | RISING_EDGE
  | FALLING_EDGE
  | BOTH_EDGE
deriving DecidableEq

/-- `struct gpios`; no edge is `NO_EDGE`. -/
structure Gpios where
  gpio : ℕ
  value_fd : ℕ
  edge : Option Edge
  initial_thread : Bool
  thread_added : Bool
  bouncetime : CInt
  lastcall : ℕ

structure PyCallback where
  gpio : ℕ
  py_cb : ℕ

/-- A callback that was called, with the time of the event. -/
structure Called where
  gpio : ℕ
  py_cb : ℕ
  timenow : ℕ
deriving DecidableEq

/-- What the kernel answers during a call. -/
structure Answers where
  /-- Whether the files `export`, `direction`, `edge` and `unexport` can be written for a pin. -/
  gpio_export : ℕ → Bool
  gpio_set_direction : ℕ → Bool
  gpio_set_edge : ℕ → Bool
  gpio_unexport : ℕ → Bool
  /-- The descriptor of the file `value`, if it can be opened. -/
  open_value_file : Option ℕ
  epoll_create : Bool
  epoll_ctl : Bool
  pthread_create : Bool

/-- The lists and flags of the library, and what it uses of the kernel. -/
structure Events where
  gpio_list : List Gpios
  py_callbacks : List PyCallback
  /-- The pins of the records in `callbacks`; their function is `run_py_callbacks`. -/
  callbacks : List ℕ
  event_occurred : ℕ → Bool
  thread_running : Bool
  /-- The descriptors added to the two epoll descriptors. -/
  epfd_thread : Option (List ℕ)
  epfd_blocking : Option (List ℕ)
  /-- The files `value` that are open, and the pins that are exported. -/
  files : List ℕ
  exported : ℕ → Bool
  edges : ℕ → Option Edge
  /-- The pin that the program waits for, and `initial_edge`. -/
  waiting : Option (ℕ × Bool)
  /-- The calls of the callbacks. -/
  calls : List Called

/-- A record that is not there was used. -/
inductive NullPointer where
  | gpios
deriving DecidableEq, Repr

def Events.initial : Events where
  gpio_list := []
  py_callbacks := []
  callbacks := []
  event_occurred := fun _ ↦ false
  thread_running := false
  epfd_thread := none
  epfd_blocking := none
  files := []
  exported := fun _ ↦ false
  edges := fun _ ↦ none
  waiting := none
  calls := []

namespace Events

/-! ## Lists -/

def get_gpio (events : Events) (gpio : ℕ) : Option Gpios :=
  events.gpio_list.find? fun g ↦ decide (g.gpio = gpio)

def get_gpio_from_value_fd (events : Events) (fd : ℕ) : Option Gpios :=
  events.gpio_list.find? fun g ↦ decide (g.value_fd = fd)

def gpio_event_added (events : Events) (gpio : ℕ) : Option Edge :=
  (events.get_gpio gpio).bind Gpios.edge

def callback_exists (events : Events) (gpio : ℕ) : Bool := decide (gpio ∈ events.callbacks)

/-- Write the fields of a record, which is found by its descriptor. -/
def put (events : Events) (record : Gpios) : Events :=
  { events with
    gpio_list := events.gpio_list.map fun g ↦ if g.value_fd = record.value_fd then record else g }

def delete_gpio (events : Events) (gpio : ℕ) : Events :=
  { events with gpio_list := events.gpio_list.eraseP fun g ↦ decide (g.gpio = gpio) }

/-! ## Files -/

def gpio_set_edge (events : Events) (answers : Answers) (gpio : ℕ) (edge : Option Edge) : Events :=
  { events with
    edges :=
      if answers.gpio_set_edge gpio then Function.update events.edges gpio edge else events.edges }

def gpio_unexport (events : Events) (answers : Answers) (gpio : ℕ) : Events :=
  { events with
    exported :=
      if answers.gpio_unexport gpio then Function.update events.exported gpio false
      else events.exported }

/-- `close` of a file `value`, which takes its descriptor away from the epoll descriptors. -/
def close (events : Events) (fd : ℕ) : Events :=
  { events with
    files := events.files.filter (· ≠ fd)
    epfd_thread := events.epfd_thread.map fun fds ↦ fds.filter (· ≠ fd)
    epfd_blocking := events.epfd_blocking.map fun fds ↦ fds.filter (· ≠ fd) }

/-- `new_gpio`.  The fields that its callers write are those they write. -/
def new_gpio (events : Events) (answers : Answers) (gpio : ℕ) : Option Gpios × Events :=
  if ¬events.exported gpio ∧ ¬answers.gpio_export gpio then (none, events)
  else
    let events := { events with exported := Function.update events.exported gpio true }
    if answers.gpio_set_direction gpio then
      match answers.open_value_file.filter fun fd ↦ decide (fd ∉ events.files) with
      | none => (none, events.gpio_unexport answers gpio)
      | some fd =>
        let record : Gpios := ⟨gpio, fd, none, true, false, -666, 0⟩
        (some record,
          { events with gpio_list := record :: events.gpio_list, files := fd :: events.files })
    else (none, events)

def remove_edge_detect (events : Events) (answers : Answers) (gpio : ℕ) : Events :=
  match events.get_gpio gpio with
  | none => events
  | some g =>
    let events := { events with callbacks := events.callbacks.filter (· ≠ gpio) }
    let events := (events.gpio_set_edge answers gpio none).close g.value_fd
    let events := events.gpio_unexport answers gpio
    let events :=
      { events with event_occurred := Function.update events.event_occurred gpio false }
    events.delete_gpio gpio

/-! ## Detection -/

/-- The record of a new pin for this edge, in `add_edge_detect` and `blocking_wait_for_edge`. -/
def newly (events : Events) (answers : Answers) (gpio : ℕ) (edge : Edge) (bouncetime : CInt) :
    Option Gpios × Events :=
  match events.new_gpio answers gpio with
  | (none, events) => (none, events)
  | (some g, events) =>
    let g := { g with edge := some edge, bouncetime }
    (some g, (events.gpio_set_edge answers gpio (some edge)).put g)

/-- The end of `add_edge_detect`, from `epoll_create` on. -/
def watch (events : Events) (answers : Answers) (g : Gpios) : ℕ × Events :=
  match if events.epfd_thread.isNone ∧ answers.epoll_create then some []
    else events.epfd_thread with
  | none => (2, events)
  | some fds =>
    let events := { events with epfd_thread := some fds }
    if answers.epoll_ctl ∧ g.value_fd ∉ fds then
      let events := { events with epfd_thread := some (g.value_fd :: fds) }
      let events := events.put { g with thread_added := true }
      if events.thread_running then (0, events)
      else if answers.pthread_create then (0, { events with thread_running := true })
      else (2, events.remove_edge_detect answers g.gpio)
    else (2, events.remove_edge_detect answers g.gpio)

def add_edge_detect (events : Events) (answers : Answers) (gpio : ℕ) (edge : Edge)
    (bouncetime : CInt) : ℕ × Events :=
  match events.gpio_event_added gpio with
  | none =>
    match events.newly answers gpio edge bouncetime with
    | (none, events) => (2, events)
    | (some g, events) => events.watch answers g
  | some i =>
    if i = edge then
      match events.get_gpio gpio with
      | none => (1, events)
      | some g =>
        if (bouncetime ≠ -666 ∧ g.bouncetime ≠ bouncetime) ∨ g.thread_added then (1, events)
        else events.watch answers g
    else (1, events)

/-- `event_cleanup`; no pin is every pin. -/
def event_cleanup (events : Events) (answers : Answers) (gpio : Option ℕ) : Events :=
  let events := events.gpio_list.foldl (fun events g ↦
    if gpio = none ∨ gpio = some g.gpio then events.remove_edge_detect answers g.gpio else events)
    events
  if events.gpio_list.isEmpty then
    { events with epfd_blocking := none, epfd_thread := none, thread_running := false }
  else events

/-- The middle of `blocking_wait_for_edge`, from `epoll_create` to the loop. -/
def await (events : Events) (answers : Answers) (g : Gpios) : Events :=
  match if events.epfd_blocking.isNone ∧ answers.epoll_create then some []
    else events.epfd_blocking with
  | none => events
  | some fds =>
    if answers.epoll_ctl ∧ g.value_fd ∉ fds then
      { events with epfd_blocking := some (g.value_fd :: fds), waiting := some (g.gpio, true) }
    else { events with epfd_blocking := some fds }

/-- `blocking_wait_for_edge` up to the loop. -/
def blocking_wait_for_edge (events : Events) (answers : Answers) (gpio : ℕ) (edge : Edge)
    (bouncetime : CInt) : Events :=
  if events.callback_exists gpio then events
  else
    match events.gpio_event_added gpio with
    | none =>
      match events.newly answers gpio edge bouncetime with
      | (none, events) => events
      | (some g, events) => events.await answers g
    | some ed =>
      match events.get_gpio gpio with
      | none => events
      | some g =>
        if ed = edge then
          if g.bouncetime ≠ -666 ∧ g.bouncetime ≠ bouncetime then events
          else events.await answers g
        else
          let g := { g with edge := some edge, bouncetime }
          ((events.gpio_set_edge answers gpio (some edge)).put g).await answers g

/-- An event at this time is not one that follows the last one too closely. -/
def accepts (g : Gpios) (timenow : ℕ) : Prop :=
  g.bouncetime = -666 ∨ (g.bouncetime * 1000).toNat < timenow - g.lastcall ∨ g.lastcall = 0 ∨
    timenow < g.lastcall

instance (g : Gpios) (timenow : ℕ) : Decidable (accepts g timenow) :=
  inferInstanceAs (Decidable (_ ∨ _ ∨ _ ∨ _))

/-- `run_callbacks`, each of which is `run_py_callbacks`. -/
def run_callbacks (events : Events) (gpio timenow : ℕ) : Events :=
  let run_py_callbacks :=
    (events.py_callbacks.filter fun cb ↦ decide (cb.gpio = gpio)).map fun cb ↦
      ⟨gpio, cb.py_cb, timenow⟩
  { events with
    calls := events.calls ++
      ((events.callbacks.filter (· = gpio)).map fun _ ↦ run_py_callbacks).flatten }

/-- What `poll_thread` does with an event of a descriptor, if it waits for those. -/
def poll_thread (events : Events) (fd : ℕ) (readable : Bool) (timenow : ℕ) :
    Except NullPointer Events :=
  if events.thread_running ∧ fd ∈ events.epfd_thread.getD [] then
    if readable then
      match events.get_gpio_from_value_fd fd with
      | none => .error .gpios
      | some g =>
        if g.initial_thread then .ok (events.put { g with initial_thread := false })
        else if accepts g timenow then
          let events := events.put { g with lastcall := timenow }
          let events :=
            { events with event_occurred := Function.update events.event_occurred g.gpio true }
          .ok (events.run_callbacks g.gpio timenow)
        else .ok events
    else .ok { events with thread_running := false }
  else .ok events

/-- What `blocking_wait_for_edge` does when `epoll_wait` returns: there was an error, or an event or
the timeout. -/
def wakeup (events : Events) (failed : Bool) (timenow : ℕ) : Except NullPointer Events :=
  match events.waiting with
  | none => .ok events
  | some (gpio, initial_edge) =>
    match events.get_gpio gpio with
    | none => .error .gpios
    | some g =>
      let finish (events : Events) : Events :=
        { events with
          waiting := none
          epfd_blocking := events.epfd_blocking.map fun fds ↦ fds.filter (· ≠ g.value_fd) }
      if failed then .ok (finish events)
      else if initial_edge then .ok { events with waiting := some (gpio, false) }
      else if accepts g timenow then .ok (finish (events.put { g with lastcall := timenow }))
      else .ok events

/-! ## The Python module -/

def add_py_callback (events : Events) (gpio py_cb : ℕ) : Events :=
  { events with
    py_callbacks := events.py_callbacks ++ [⟨gpio, py_cb⟩]
    callbacks := events.callbacks ++ [gpio] }

/-- A call of the program. -/
inductive PyCall where
  | add_event_detect (gpio : ℕ) (edge : Edge) (bouncetime : CInt) (callback : Option ℕ)
  | add_event_callback (gpio py_cb : ℕ)
  | remove_event_detect (gpio : ℕ)
  | event_detected (gpio : ℕ)
  | wait_for_edge (gpio : ℕ) (edge : Edge) (bouncetime : CInt)
  /-- Without a pin it is for every pin. -/
  | cleanup (gpio : Option ℕ)

/-- A bounce time that the module does not refuse. -/
def validBouncetime (bouncetime : CInt) : Prop := 0 < bouncetime.toInt ∨ bouncetime = -666

instance (bouncetime : CInt) : Decidable (validBouncetime bouncetime) :=
  inferInstanceAs (Decidable (_ ∨ _))

/-- What a call does; `wait_for_edge` begins to wait. -/
def call (events : Events) (answers : Answers) : PyCall → Events
  | .add_event_detect gpio edge bouncetime callback =>
    if validBouncetime bouncetime then
      let (result, events) := events.add_edge_detect answers gpio edge bouncetime
      match callback with
      | some py_cb => if result = 0 then events.add_py_callback gpio py_cb else events
      | none => events
    else events
  | .add_event_callback gpio py_cb =>
    if (events.gpio_event_added gpio).isSome then events.add_py_callback gpio py_cb else events
  | .remove_event_detect gpio =>
    let events := { events with
      py_callbacks := events.py_callbacks.filter fun cb ↦ decide (cb.gpio ≠ gpio) }
    events.remove_edge_detect answers gpio
  | .event_detected gpio =>
    { events with event_occurred := Function.update events.event_occurred gpio false }
  | .wait_for_edge gpio edge bouncetime =>
    if validBouncetime bouncetime then
      events.blocking_wait_for_edge answers gpio edge bouncetime
    else events
  | .cleanup gpio => events.event_cleanup answers gpio

/-! ## Runs -/

/-- What happens next. -/
inductive Action where
  /-- The program makes a call, if it does not wait for an edge. -/
  | call (answers : Answers) (function : PyCall)
  /-- There is an event of a descriptor. -/
  | event (fd : ℕ) (readable : Bool) (timenow : ℕ)
  /-- `epoll_wait` fails in the thread. -/
  | failed
  /-- `epoll_wait` returns in `blocking_wait_for_edge`. -/
  | wakeup (failed : Bool) (timenow : ℕ)

def step (events : Events) : Action → Except NullPointer Events
  | .call answers function =>
    .ok (if events.waiting.isNone then events.call answers function else events)
  | .event fd readable timenow => events.poll_thread fd readable timenow
  | .failed => .ok { events with thread_running := false }
  | .wakeup failed timenow => events.wakeup failed timenow

def run (events : Events) : List Action → Except NullPointer Events
  | [] => .ok events
  | action :: rest => events.step action >>= fun next ↦ next.run rest

end Events

end PiFunk.RpiGpio
