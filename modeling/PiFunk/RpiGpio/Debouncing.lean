import PiFunk.Library.Debounce
import PiFunk.RpiGpio.EventLists

/-!
# Bouncing switches

The callbacks of a pin are called for the first event behind the one that the thread ignores, and
from then on for each event that comes later than the bounce time after the last one that counted.
Whatever the program does with the other pins meanwhile, it makes no difference to this one.
-/

namespace PiFunk.RpiGpio.Events

open KeyedList

/-- What happens to a pin is the same in both. -/
structure Unaffected (gpio : ℕ) (events next : Events) : Prop where
  records : ∀ g ∈ events.gpio_list, g.gpio = gpio → g ∈ next.gpio_list
  thread_running : events.thread_running = true → next.thread_running = true
  callbacks : next.callbacks.filter (· = gpio) = events.callbacks.filter (· = gpio)
  py_callbacks : next.py_callbacks.filter (fun cb ↦ decide (cb.gpio = gpio)) =
    events.py_callbacks.filter fun cb ↦ decide (cb.gpio = gpio)
  calls : next.calls.filter (fun called ↦ decide (called.gpio = gpio)) =
    events.calls.filter fun called ↦ decide (called.gpio = gpio)
  waiting : ∀ initial_edge, next.waiting = some (gpio, initial_edge) →
    ∃ before, events.waiting = some (gpio, before)

variable {gpio : ℕ} {events middle next : Events}

theorem Unaffected.refl (gpio : ℕ) (events : Events) : Unaffected gpio events events :=
  ⟨fun _ hmem _ ↦ hmem, id, rfl, rfl, rfl, fun initial_edge heq ↦ ⟨initial_edge, heq⟩⟩

theorem Unaffected.trans (hfirst : Unaffected gpio events middle)
    (hsecond : Unaffected gpio middle next) : Unaffected gpio events next where
  records := fun g hmem hgpio ↦ hsecond.records g (hfirst.records g hmem hgpio) hgpio
  thread_running := fun hrunning ↦ hsecond.thread_running (hfirst.thread_running hrunning)
  callbacks := hsecond.callbacks.trans hfirst.callbacks
  py_callbacks := hsecond.py_callbacks.trans hfirst.py_callbacks
  calls := hsecond.calls.trans hfirst.calls
  waiting := by
    intro initial_edge heq
    obtain ⟨before, hbefore⟩ := hsecond.waiting initial_edge heq
    exact hfirst.waiting before hbefore

/-! ## Other pins -/

theorem unaffected_put (hkept : events.Kept) {g : Gpios} (hmem : g ∈ events.gpio_list)
    (hother : g.gpio ≠ gpio) (record : Gpios) (hfd : record.value_fd = g.value_fd) :
    Unaffected gpio events (events.put record) := by
  refine { Unaffected.refl gpio events with records := fun old hold hgpio ↦ ?_ }
  apply mem_put_of_ne hold
  intro heq
  obtain rfl := (key_eq_iff hkept.descriptors hold hmem).mp (heq.trans hfd)
  exact hother hgpio

theorem unaffected_remove (hkept : events.Kept) (answers : Answers) {other : ℕ}
    (hother : other ≠ gpio) :
    Unaffected gpio events (events.remove_edge_detect answers other) := by
  cases hfound : events.get_gpio other with
  | none =>
    rw [remove_edge_detect_of_none hfound]
    exact Unaffected.refl gpio events
  | some g =>
    rw [remove_edge_detect_of_some hkept hfound]
    refine { Unaffected.refl gpio events with
      records := fun old hold hgpio ↦ ?_
      callbacks := filter_key_of_ne id hother }
    apply List.mem_filter.mpr
    refine ⟨hold, ?_⟩
    rw [hgpio]
    exact decide_eq_true hother.symm

theorem unaffected_newly (hkept : events.Kept) (answers : Answers) (other : ℕ) (edge : Edge)
    (bouncetime : CInt) :
    Unaffected gpio events (events.newly answers other edge bouncetime).2 := by
  rcases newly_cases hkept answers other edge bouncetime with
    ⟨exported, hnew, -⟩ | ⟨fd, -, edges, hnew⟩
  · rw [hnew]
    exact { Unaffected.refl gpio events with }
  · rw [hnew]
    exact { Unaffected.refl gpio events with
      records := fun old hold _ ↦ List.mem_cons_of_mem _ hold }

theorem unaffected_watch (hkept : events.Kept) (answers : Answers) {g : Gpios}
    (hmem : g ∈ events.gpio_list) (hother : g.gpio ≠ gpio) :
    Unaffected gpio events (events.watch answers g).2 := by
  have hadd : ∀ fds, Unaffected gpio events (events.addThread g fds) := fun fds ↦
    { unaffected_put hkept hmem hother { g with thread_added := true } rfl with }
  rcases watch_cases events answers g with
    hwatch | ⟨fds, hfds, hwatch | hwatch | hwatch⟩
  · rw [hwatch]
    exact Unaffected.refl gpio events
  · rw [hwatch]
    exact { hadd fds with thread_running := fun _ ↦ rfl }
  · rw [hwatch]
    exact (hadd fds).trans (unaffected_remove (hkept.addThread hfds hmem) answers hother)
  · have hopen : Unaffected gpio events { events with epfd_thread := some fds } :=
      { Unaffected.refl gpio events with }
    rw [hwatch]
    exact hopen.trans (unaffected_remove (hkept.open_thread hfds) answers hother)

theorem unaffected_add_edge_detect (hkept : events.Kept) (answers : Answers) {other : ℕ}
    (hother : other ≠ gpio) (edge : Edge) (bouncetime : CInt) :
    Unaffected gpio events (events.add_edge_detect answers other edge bouncetime).2 := by
  unfold Events.add_edge_detect
  cases hadded : events.gpio_event_added other with
  | none =>
    have hpin := (gpio_event_added_eq_none_iff hkept).mp hadded
    have hnewly : Unaffected gpio events (events.newly answers other edge bouncetime).2 :=
      unaffected_newly hkept answers other edge bouncetime
    rcases hkept.newly answers hpin edge bouncetime with
      ⟨created, hnew, -⟩ | ⟨fd, created, hnew, hcreated, -, hmem⟩
    · rw [hnew] at hnewly
      simp only [hnew]
      exact hnewly
    · rw [hnew] at hnewly
      simp only [hnew]
      exact hnewly.trans (unaffected_watch hcreated answers hmem hother)
  | some i =>
    dsimp only
    split
    · cases hfound : events.get_gpio other with
      | none => exact Unaffected.refl gpio events
      | some g =>
        obtain ⟨hmem, rfl⟩ := mem_of_get_gpio hfound
        dsimp only
        split
        · exact Unaffected.refl gpio events
        · exact unaffected_watch hkept answers hmem hother
    · exact Unaffected.refl gpio events

/-- A pin that the thread waits for is not added again. -/
theorem add_edge_detect_again (hkept : events.Kept) (answers : Answers) {g : Gpios}
    (hmem : g ∈ events.gpio_list) (hadded : g.thread_added = true) (edge : Edge)
    (bouncetime : CInt) :
    events.add_edge_detect answers g.gpio edge bouncetime = (1, events) := by
  obtain ⟨i, hi⟩ := Option.isSome_iff_exists.mp (hkept.edges g hmem)
  have hfound := get_gpio_eq hkept hmem
  have hevent : events.gpio_event_added g.gpio = some i := by
    rw [gpio_event_added, hfound, Option.bind_some, hi]
  rw [Events.add_edge_detect, hevent]
  dsimp only
  split
  · rw [hfound]
    exact if_pos (.inr hadded)
  · rfl

theorem unaffected_await (answers : Answers) {g : Gpios} (hother : g.gpio ≠ gpio) :
    Unaffected gpio events (events.await answers g) := by
  unfold Events.await
  split
  · exact Unaffected.refl gpio events
  · split
    · refine { Unaffected.refl gpio events with waiting := fun initial_edge heq ↦ ?_ }
      rw [Option.some.injEq, Prod.mk.injEq] at heq
      exact absurd heq.1 hother
    · exact { Unaffected.refl gpio events with }

theorem unaffected_add_py_callback (events : Events) {other : ℕ} (hother : other ≠ gpio)
    (py_cb : ℕ) : Unaffected gpio events (events.add_py_callback other py_cb) := by
  refine { Unaffected.refl gpio events with callbacks := ?_, py_callbacks := ?_ }
  · rw [add_py_callback, List.filter_append, List.filter_cons_of_neg (by simpa using hother),
      List.filter_nil, List.append_nil]
  · rw [add_py_callback, List.filter_append, List.filter_cons_of_neg (by simpa using hother),
      List.filter_nil, List.append_nil]

theorem unaffected_blocking_wait_for_edge (hkept : events.Kept) (answers : Answers) {other : ℕ}
    (hother : other ≠ gpio) (edge : Edge) (bouncetime : CInt) :
    Unaffected gpio events (events.blocking_wait_for_edge answers other edge bouncetime) := by
  unfold Events.blocking_wait_for_edge
  split
  · exact Unaffected.refl gpio events
  · cases events.gpio_event_added other with
    | none =>
      have hnewly : Unaffected gpio events (events.newly answers other edge bouncetime).2 :=
        unaffected_newly hkept answers other edge bouncetime
      rcases newly_cases hkept answers other edge bouncetime with
        ⟨exported, hnew, -⟩ | ⟨fd, -, edges, hnew⟩
      · rw [hnew] at hnewly
        simp only [hnew]
        exact hnewly
      · rw [hnew] at hnewly
        simp only [hnew]
        exact hnewly.trans (unaffected_await answers hother)
    | some ed =>
      cases hfound : events.get_gpio other with
      | none => exact Unaffected.refl gpio events
      | some g =>
        obtain ⟨hmem, rfl⟩ := mem_of_get_gpio hfound
        dsimp only
        split
        · split
          · exact Unaffected.refl gpio events
          · exact unaffected_await answers hother
        · have hput : Unaffected gpio events
              ((events.gpio_set_edge answers g.gpio (some edge)).put
                { g with edge := some edge, bouncetime }) :=
            { unaffected_put hkept hmem hother { g with edge := some edge, bouncetime } rfl with }
          exact hput.trans (unaffected_await answers hother)

theorem unaffected_event_cleanup (hkept : events.Kept) (hidle : events.waiting = none)
    (answers : Answers) {other : ℕ} (hother : other ≠ gpio) {g : Gpios}
    (hmem : g ∈ events.gpio_list) (hgpio : g.gpio = gpio) :
    Unaffected gpio events (events.event_cleanup answers (some other)) := by
  have hloop : ∀ (snapshot : List Gpios) {before : Events}, before.Kept → before.waiting = none →
      Unaffected gpio before (snapshot.foldl (fun events g ↦
        if some other = none ∨ some other = some g.gpio then
          events.remove_edge_detect answers g.gpio
        else events) before) := by
    intro snapshot
    induction snapshot with
    | nil => exact fun _ _ ↦ Unaffected.refl gpio _
    | cons first rest ih =>
      intro before hbefore hwaiting
      rw [List.foldl_cons]
      by_cases hfirst : some other = none ∨ some other = some first.gpio
      · rw [if_pos hfirst]
        have hpin : first.gpio ≠ gpio := by
          rcases hfirst with hnone | hsome
          · cases hnone
          · rwa [← Option.some.inj hsome]
        exact (unaffected_remove hbefore answers hpin).trans
          (ih (hbefore.remove hwaiting answers first.gpio)
            ((waiting_remove before answers first.gpio).trans hwaiting))
      · rw [if_neg hfirst]
        exact ih hbefore hwaiting
  have hcleaned := hloop events.gpio_list hkept hidle
  unfold Events.event_cleanup
  dsimp only
  split
  · rename_i hempty
    have hrecord := hcleaned.records g hmem hgpio
    rw [List.isEmpty_iff.mp hempty] at hrecord
    exact absurd hrecord List.not_mem_nil
  · exact hcleaned

/-! ## The pin itself -/

/-- The actions that leave the detection for the pin as it is. -/
def Action.Spares (gpio : ℕ) : Action → Prop
  | .call _ (.add_event_detect _ _ _ _) => True
  | .call _ (.add_event_callback other _) => other ≠ gpio
  | .call _ (.remove_event_detect other) => other ≠ gpio
  | .call _ (.event_detected _) => True
  | .call _ (.wait_for_edge other _ _) => other ≠ gpio
  | .call _ (.cleanup other) => ∃ pin, other = some pin ∧ pin ≠ gpio
  | .event _ readable _ => readable = true
  | .failed => False
  | .wakeup _ _ => True

/-- The thread waits for the pin of this record. -/
structure Listens (events : Events) (g : Gpios) : Prop where
  kept : events.Kept
  mem : g ∈ events.gpio_list
  added : g.thread_added = true
  running : events.thread_running = true
  elsewhere : ∀ initial_edge, events.waiting ≠ some (g.gpio, initial_edge)

/-- The calls of the callbacks for one event. -/
def rung (events : Events) (gpio timenow : ℕ) : List Called :=
  ((events.callbacks.filter (· = gpio)).map fun _ ↦
    (events.py_callbacks.filter fun cb ↦ decide (cb.gpio = gpio)).map fun cb ↦
      ⟨gpio, cb.py_cb, timenow⟩).flatten

/-- The calls of the callbacks of a pin so far. -/
def callsOf (events : Events) (gpio : ℕ) : List Called :=
  events.calls.filter fun called ↦ decide (called.gpio = gpio)

/-- An event calls nothing but the callbacks of its pin. -/
theorem gpio_of_mem_rung {timenow : ℕ} {called : Called}
    (hcalled : called ∈ events.rung gpio timenow) : called.gpio = gpio := by
  obtain ⟨block, hblock, hin⟩ := List.mem_flatten.mp hcalled
  obtain ⟨pin, -, rfl⟩ := List.mem_map.mp hblock
  obtain ⟨cb, -, rfl⟩ := List.mem_map.mp hin
  rfl

theorem Unaffected.rung_eq (hsame : Unaffected gpio events next) :
    next.rung gpio = events.rung gpio := by
  funext timenow
  rw [rung, rung, hsame.callbacks, hsame.py_callbacks]

theorem Listens.of_unaffected {g : Gpios} (hlistens : events.Listens g)
    (hsame : Unaffected g.gpio events next) (hkept : next.Kept) : next.Listens g where
  kept := hkept
  mem := hsame.records g hlistens.mem rfl
  added := hlistens.added
  running := hsame.thread_running hlistens.running
  elsewhere := by
    intro initial_edge heq
    obtain ⟨before, hbefore⟩ := hsame.waiting initial_edge heq
    exact hlistens.elsewhere before hbefore

theorem Listens.unaffected_call {g : Gpios} (hlistens : events.Listens g)
    (hidle : events.waiting = none) (answers : Answers) (function : PyCall)
    (hspares : (Action.call answers function).Spares g.gpio) :
    Unaffected g.gpio events (events.call answers function) := by
  cases function with
  | add_event_detect other edge bouncetime callback =>
    unfold Events.call
    dsimp only
    split
    · by_cases hother : other = g.gpio
      · rw [hother, add_edge_detect_again hlistens.kept answers hlistens.mem hlistens.added]
        cases callback with
        | none => exact Unaffected.refl g.gpio events
        | some py_cb => exact Unaffected.refl g.gpio events
      · have hadd := unaffected_add_edge_detect hlistens.kept answers hother edge bouncetime
        cases callback with
        | none => exact hadd
        | some py_cb =>
          dsimp only
          split
          · exact hadd.trans (unaffected_add_py_callback _ hother py_cb)
          · exact hadd
    · exact Unaffected.refl g.gpio events
  | add_event_callback other py_cb =>
    unfold Events.call
    dsimp only
    split
    · exact unaffected_add_py_callback events hspares py_cb
    · exact Unaffected.refl g.gpio events
  | remove_event_detect other =>
    have hcallbacks : Unaffected g.gpio events { events with
        py_callbacks := events.py_callbacks.filter fun cb ↦ decide (cb.gpio ≠ other) } :=
      { Unaffected.refl g.gpio events with
        py_callbacks := filter_key_of_ne PyCallback.gpio hspares }
    have hkept : ({ events with
        py_callbacks := events.py_callbacks.filter fun cb ↦
          decide (cb.gpio ≠ other) } : Events).Kept := { hlistens.kept with }
    exact hcallbacks.trans (unaffected_remove hkept answers hspares)
  | event_detected other => exact { Unaffected.refl g.gpio events with }
  | wait_for_edge other edge bouncetime =>
    unfold Events.call
    dsimp only
    split
    · exact unaffected_blocking_wait_for_edge hlistens.kept answers hspares edge bouncetime
    · exact Unaffected.refl g.gpio events
  | cleanup other =>
    obtain ⟨pin, rfl, hpin⟩ := hspares
    exact unaffected_event_cleanup hlistens.kept hidle answers hpin hlistens.mem rfl

theorem unaffected_poll_thread (hkept : events.Kept) {fd : ℕ} (timenow : ℕ)
    (hother : ∀ g ∈ events.gpio_list, g.value_fd = fd → g.gpio ≠ gpio)
    (hnext : events.poll_thread fd true timenow = .ok next) : Unaffected gpio events next := by
  unfold Events.poll_thread at hnext
  split at hnext
  · rename_i hlistens
    obtain ⟨g, hmem, rfl, -⟩ := (hkept.watched fd).mp hlistens.2
    have hpin := hother g hmem rfl
    have hfound : events.get_gpio_from_value_fd g.value_fd = some g :=
      find?_key hkept.descriptors hmem
    rw [if_pos rfl, hfound] at hnext
    dsimp only at hnext
    split at hnext
    · cases hnext
      exact unaffected_put hkept hmem hpin { g with initial_thread := false } rfl
    · split at hnext
      · cases hnext
        refine { unaffected_put hkept hmem hpin { g with lastcall := timenow } rfl with
          calls := ?_ }
        have hrung : (events.rung g.gpio timenow).filter
            (fun called ↦ decide (called.gpio = gpio)) = [] := by
          apply List.filter_eq_nil_iff.mpr
          intro called hcalled
          rw [gpio_of_mem_rung hcalled, decide_eq_true_eq]
          exact hpin
        change (events.calls ++ events.rung g.gpio timenow).filter _ = _
        rw [List.filter_append, hrung, List.append_nil]
      · cases hnext
        exact Unaffected.refl gpio events
  · cases hnext
    exact Unaffected.refl gpio events

theorem unaffected_wakeup (hkept : events.Kept) (failed : Bool) (timenow : ℕ)
    (helsewhere : ∀ initial_edge, events.waiting ≠ some (gpio, initial_edge))
    (hnext : events.wakeup failed timenow = .ok next) : Unaffected gpio events next := by
  unfold Events.wakeup at hnext
  cases hwaiting : events.waiting with
  | none =>
    rw [hwaiting] at hnext
    cases hnext
    exact Unaffected.refl gpio events
  | some pair =>
    obtain ⟨pin, initial_edge⟩ := pair
    obtain ⟨g, hmem, rfl⟩ := List.mem_map.mp (hkept.waiting pin initial_edge hwaiting)
    have hpin : g.gpio ≠ gpio := by
      rintro rfl
      exact helsewhere initial_edge hwaiting
    have hquiet : ∀ initial_edge', (none : Option (ℕ × Bool)) = some (gpio, initial_edge') →
        ∃ before, events.waiting = some (gpio, before) := by
      intro initial_edge' heq
      cases heq
    rw [hwaiting] at hnext
    dsimp only at hnext
    rw [get_gpio_eq hkept hmem] at hnext
    dsimp only at hnext
    split at hnext
    · cases hnext
      exact { Unaffected.refl gpio events with waiting := hquiet }
    · split at hnext
      · cases hnext
        refine { Unaffected.refl gpio events with waiting := fun initial_edge' heq ↦ ?_ }
        rw [Option.some.injEq, Prod.mk.injEq] at heq
        exact absurd heq.1 hpin
      · split at hnext
        · cases hnext
          exact { unaffected_put hkept hmem hpin { g with lastcall := timenow } rfl with
            waiting := hquiet }
        · cases hnext
          exact Unaffected.refl gpio events

/-- The record after an event, and whether the event counts. -/
def hear (g : Gpios) (timenow : ℕ) : Gpios × Bool :=
  if g.initial_thread then ({ g with initial_thread := false }, false)
  else if accepts g timenow then ({ g with lastcall := timenow }, true)
  else (g, false)

/-- An event of the pin. -/
theorem Listens.poll_thread {g : Gpios} (hlistens : events.Listens g) (timenow : ℕ) :
    ∃ next, events.poll_thread g.value_fd true timenow = .ok next ∧
      next.Listens (hear g timenow).1 ∧ next.rung g.gpio = events.rung g.gpio ∧
      next.callsOf g.gpio = events.callsOf g.gpio ++
        if (hear g timenow).2 then events.rung g.gpio timenow else [] := by
  have hwatched : g.value_fd ∈ events.epfd_thread.getD [] :=
    (hlistens.kept.watched g.value_fd).mpr ⟨g, hlistens.mem, rfl, hlistens.added⟩
  have hfound : events.get_gpio_from_value_fd g.value_fd = some g :=
    find?_key hlistens.kept.descriptors hlistens.mem
  obtain ⟨next, hnext, hkept⟩ := hlistens.kept.poll_thread g.value_fd true timenow
  refine ⟨next, hnext, ?_⟩
  rw [Events.poll_thread, if_pos ⟨hlistens.running, hwatched⟩, if_pos rfl, hfound] at hnext
  dsimp only at hnext
  unfold hear
  split at hnext
  · rename_i hinitial
    cases hnext
    rw [if_pos hinitial]
    exact ⟨⟨hkept, mem_put_self hlistens.mem rfl, hlistens.added, hlistens.running,
      hlistens.elsewhere⟩, rfl, (List.append_nil _).symm⟩
  · rename_i hinitial
    rw [if_neg hinitial]
    split at hnext
    · rename_i haccepts
      cases hnext
      rw [if_pos haccepts]
      refine ⟨⟨hkept, mem_put_self hlistens.mem rfl, hlistens.added, hlistens.running,
        hlistens.elsewhere⟩, rfl, ?_⟩
      have hrung : (events.rung g.gpio timenow).filter
          (fun called ↦ decide (called.gpio = g.gpio)) = events.rung g.gpio timenow := by
        apply List.filter_eq_self.mpr
        intro called hcalled
        exact decide_eq_true (gpio_of_mem_rung hcalled)
      change (events.calls ++ events.rung g.gpio timenow).filter _ = _
      rw [List.filter_append, hrung]
      rfl
    · rename_i haccepts
      cases hnext
      rw [if_neg haccepts]
      exact ⟨hlistens, rfl, (List.append_nil _).symm⟩

/-! ## Runs -/

/-- The times of the events of a descriptor. -/
def heard (fd : ℕ) : List Action → List ℕ :=
  List.filterMap fun
    | .event other _ timenow => if other = fd then some timenow else none
    | _ => none

/-- The record after some events. -/
def after (g : Gpios) (times : List ℕ) : Gpios :=
  times.foldl (fun g timenow ↦ (hear g timenow).1) g

/-- The times of the events that count. -/
def taken : Gpios → List ℕ → List ℕ
  | _, [] => []
  | g, timenow :: rest =>
    (if (hear g timenow).2 then [timenow] else []) ++ taken (hear g timenow).1 rest

theorem taken_append (g : Gpios) (first second : List ℕ) :
    taken g (first ++ second) = taken g first ++ taken (after g first) second := by
  induction first generalizing g with
  | nil => rfl
  | cons timenow rest ih =>
    rw [List.cons_append, taken, ih, taken, List.append_assoc]
    rfl

/-- The pin and its descriptor stay those of the record. -/
theorem hear_same (g : Gpios) (timenow : ℕ) :
    (hear g timenow).1.gpio = g.gpio ∧ (hear g timenow).1.value_fd = g.value_fd := by
  unfold hear
  split
  · exact ⟨rfl, rfl⟩
  · split
    · exact ⟨rfl, rfl⟩
    · exact ⟨rfl, rfl⟩

theorem after_same (g : Gpios) (times : List ℕ) :
    (after g times).gpio = g.gpio ∧ (after g times).value_fd = g.value_fd := by
  induction times generalizing g with
  | nil => exact ⟨rfl, rfl⟩
  | cons timenow rest ih =>
    obtain ⟨hgpio, hfd⟩ := ih (hear g timenow).1
    obtain ⟨hgpio', hfd'⟩ := hear_same g timenow
    exact ⟨hgpio.trans hgpio', hfd.trans hfd'⟩

/-- The thread still waits for the pin, and its callbacks were called for the events that count. -/
structure Rings (events next : Events) (g : Gpios) (times : List ℕ) : Prop where
  listens : next.Listens (after g times)
  rung : next.rung g.gpio = events.rung g.gpio
  calls : next.callsOf g.gpio =
    events.callsOf g.gpio ++ (taken g times).flatMap (events.rung g.gpio)

theorem Rings.of_unaffected {g : Gpios} (hlistens : events.Listens g)
    (hsame : Unaffected g.gpio events next) (hkept : next.Kept) : Rings events next g [] where
  listens := hlistens.of_unaffected hsame hkept
  rung := hsame.rung_eq
  calls := hsame.calls.trans (List.append_nil _).symm

theorem Rings.trans {g : Gpios} {first second : List ℕ} (hfirst : Rings events middle g first)
    (hsecond : Rings middle next (after g first) second) :
    Rings events next g (first ++ second) := by
  obtain ⟨hgpio, -⟩ := after_same g first
  have hrung := hsecond.rung
  have hcalls := hsecond.calls
  rw [hgpio] at hrung hcalls
  refine ⟨?_, hrung.trans hfirst.rung, ?_⟩
  · rw [after, List.foldl_append]
    exact hsecond.listens
  · rw [hcalls, hfirst.calls, hfirst.rung, taken_append, List.flatMap_append, List.append_assoc]

theorem Listens.step {g : Gpios} (hlistens : events.Listens g) {action : Action}
    (hspares : action.Spares g.gpio) :
    ∃ next, events.step action = .ok next ∧
      Rings events next g (heard g.value_fd [action]) := by
  cases action with
  | call answers function =>
    cases hwaiting : events.waiting with
    | none =>
      refine ⟨events.call answers function, by rw [Events.step, hwaiting]; rfl, ?_⟩
      exact Rings.of_unaffected hlistens
        (hlistens.unaffected_call hwaiting answers function hspares)
        (hlistens.kept.call hwaiting answers function)
    | some pair =>
      refine ⟨events, by rw [Events.step, hwaiting]; rfl, ?_⟩
      exact Rings.of_unaffected hlistens (Unaffected.refl g.gpio events) hlistens.kept
  | event fd readable timenow =>
    obtain rfl : readable = true := hspares
    by_cases hfd : fd = g.value_fd
    · subst hfd
      obtain ⟨next, hnext, hnow, hrung, hcalls⟩ := hlistens.poll_thread timenow
      have htimes : heard g.value_fd [.event g.value_fd true timenow] = [timenow] := by
        simp [heard]
      rw [htimes]
      refine ⟨next, hnext, hnow, hrung, ?_⟩
      rw [hcalls, taken, taken, List.append_nil]
      cases (hear g timenow).2 with
      | true => simp
      | false => rfl
    · obtain ⟨next, hnext, hkept⟩ := hlistens.kept.poll_thread fd true timenow
      have htimes : heard g.value_fd [.event fd true timenow] = [] := by
        simp [heard, hfd]
      rw [htimes]
      refine ⟨next, hnext, Rings.of_unaffected hlistens ?_ hkept⟩
      refine unaffected_poll_thread hlistens.kept timenow (fun other hmem heq hpin ↦ ?_) hnext
      obtain rfl := (key_eq_iff hlistens.kept.pins hmem hlistens.mem).mp hpin
      exact hfd heq.symm
  | failed => exact absurd hspares id
  | wakeup failed timenow =>
    obtain ⟨next, hnext, hkept⟩ := hlistens.kept.wakeup failed timenow
    exact ⟨next, hnext, Rings.of_unaffected hlistens
      (unaffected_wakeup hlistens.kept failed timenow hlistens.elsewhere hnext) hkept⟩

theorem Listens.run {g : Gpios} (hlistens : events.Listens g) {actions : List Action}
    (hspares : ∀ action ∈ actions, action.Spares g.gpio) :
    ∃ next, events.run actions = .ok next ∧ Rings events next g (heard g.value_fd actions) := by
  induction actions generalizing events g with
  | nil =>
    exact ⟨events, rfl,
      Rings.of_unaffected hlistens (Unaffected.refl g.gpio events) hlistens.kept⟩
  | cons action rest ih =>
    obtain ⟨middle, hstep, hrings⟩ := hlistens.step (hspares action List.mem_cons_self)
    obtain ⟨hgpio, hfd⟩ := after_same g (heard g.value_fd [action])
    obtain ⟨next, hrun, hlater⟩ := ih hrings.listens fun other hmem ↦
      hgpio ▸ hspares other (List.mem_cons_of_mem action hmem)
    refine ⟨next, ?_, ?_⟩
    · rw [Events.run, hstep]
      exact hrun
    · rw [hfd] at hlater
      have htimes : heard g.value_fd (action :: rest) =
          heard g.value_fd [action] ++ heard g.value_fd rest := by
        rw [heard, ← List.filterMap_append, List.singleton_append]
      rw [htimes]
      exact hrings.trans hlater

/-! ## Which events count -/

/-- How far an event keeps others from counting. -/
def bounced (bouncetime : CInt) (timenow : ℕ) : ℕ := timenow + (bouncetime * 1000).toNat

theorem monotone_bounced (bouncetime : CInt) : Monotone (bounced bouncetime) :=
  fun _ _ hle ↦ Nat.add_le_add_right hle _

/-- The last event that counted; before the first one `lastcall` is 0. -/
def lastCounted (lastcall : ℕ) : Option ℕ := if lastcall = 0 then none else some lastcall

/-- While the clock does not go back, an event counts when the last one does not reach it. -/
theorem accepts_iff_beyond {g : Gpios} (hbounce : g.bouncetime ≠ -666) {timenow : ℕ}
    (hle : g.lastcall ≤ timenow) :
    accepts g timenow ↔
      Debounce.Beyond (bounced g.bouncetime) (lastCounted g.lastcall) timenow := by
  unfold accepts lastCounted
  by_cases hzero : g.lastcall = 0
  · rw [if_pos hzero]
    exact ⟨fun _ ↦ Debounce.beyond_none timenow, fun _ ↦ .inr (.inr (.inl hzero))⟩
  · rw [if_neg hzero, Debounce.beyond_some, bounced]
    have hnot : ¬timenow < g.lastcall := not_lt.mpr hle
    simp only [hbounce, hzero, hnot, false_or, or_false]
    omega

theorem taken_eq_select {g : Gpios} (hinitial : g.initial_thread = false)
    (hbounce : g.bouncetime ≠ -666) {times : List ℕ} (hsorted : times.Pairwise (· ≤ ·))
    (hpositive : ∀ timenow ∈ times, 0 < timenow)
    (hlast : ∀ timenow ∈ times, g.lastcall ≤ timenow) :
    taken g times =
      Debounce.select (bounced g.bouncetime) (lastCounted g.lastcall) times := by
  induction times generalizing g with
  | nil => rfl
  | cons timenow rest ih =>
    obtain ⟨hfirst, hrest⟩ := List.pairwise_cons.mp hsorted
    have hpositive' : ∀ later ∈ rest, 0 < later :=
      fun later hmem ↦ hpositive later (List.mem_cons_of_mem timenow hmem)
    have hbeyond := accepts_iff_beyond hbounce (hlast timenow List.mem_cons_self)
    have hloop : ¬g.initial_thread = true := Bool.eq_false_iff.mp hinitial
    by_cases haccepts : accepts g timenow
    · have hnow : hear g timenow = ({ g with lastcall := timenow }, true) := by
        rw [hear, if_neg hloop, if_pos haccepts]
      have hcounted : lastCounted timenow = some timenow :=
        if_neg (hpositive timenow List.mem_cons_self).ne'
      have hlater : taken { g with lastcall := timenow } rest =
          Debounce.select (bounced g.bouncetime) (lastCounted timenow) rest :=
        ih hinitial hbounce hrest hpositive' hfirst
      rw [taken, hnow, Debounce.select_cons_of_beyond rest (hbeyond.mp haccepts)]
      dsimp only
      rw [if_pos rfl, hlater, hcounted, List.singleton_append]
    · have hnow : hear g timenow = (g, false) := by
        rw [hear, if_neg hloop, if_neg haccepts]
      rw [taken, hnow, Debounce.select_cons_of_not_beyond rest (mt hbeyond.mpr haccepts)]
      dsimp only
      rw [if_neg Bool.false_ne_true, List.nil_append]
      exact ih hinitial hbounce hrest hpositive' fun later hmem ↦
        hlast later (List.mem_cons_of_mem timenow hmem)

theorem taken_eq_self {g : Gpios} (hinitial : g.initial_thread = false)
    (hbounce : g.bouncetime = -666) (times : List ℕ) : taken g times = times := by
  induction times generalizing g with
  | nil => rfl
  | cons timenow rest ih =>
    have hnow : hear g timenow = ({ g with lastcall := timenow }, true) := by
      rw [hear, if_neg (Bool.eq_false_iff.mp hinitial), if_pos (.inl hbounce)]
    have hlater : taken { g with lastcall := timenow } rest = rest := ih hinitial hbounce
    rw [taken, hnow]
    dsimp only
    rw [hlater, if_pos rfl, List.singleton_append]

/-- A new record does not count its first event. -/
theorem taken_fresh {g : Gpios} (hinitial : g.initial_thread = true) (times : List ℕ) :
    taken g times = taken { g with initial_thread := false } times.tail := by
  cases times with
  | nil => rfl
  | cons timenow rest =>
    have hnow : hear g timenow = ({ g with initial_thread := false }, false) := if_pos hinitial
    rw [taken, hnow]
    rfl

theorem listens_watch (hkept : events.Kept) (hidle : events.waiting = none) {answers : Answers}
    {g : Gpios} (hmem : g ∈ events.gpio_list) (hresult : (events.watch answers g).1 = 0) :
    (events.watch answers g).2.Listens { g with thread_added := true } := by
  obtain ⟨fds, hfds, hwatch⟩ := watch_eq_of_zero hresult
  rw [hwatch]
  exact {
    kept := { hkept.addThread hfds hmem with }
    mem := mem_put_self hmem rfl
    added := rfl
    running := rfl
    elsewhere := by
      intro initial_edge heq
      cases hidle.symm.trans heq }

/-- A pin that has just been added is one that the thread waits for. -/
theorem listens_add_edge_detect (hkept : events.Kept) (hidle : events.waiting = none)
    {answers : Answers} {gpio : ℕ} (hgpio : gpio ∉ events.gpio_list.map Gpios.gpio) {edge : Edge}
    {bouncetime : CInt} :
    (events.add_edge_detect answers gpio edge bouncetime).1 = 0 →
      ∃ fd, (events.add_edge_detect answers gpio edge bouncetime).2.Listens
        ⟨gpio, fd, some edge, true, true, bouncetime, 0⟩ := by
  unfold Events.add_edge_detect
  rw [(gpio_event_added_eq_none_iff hkept).mpr hgpio]
  rcases hkept.newly answers hgpio edge bouncetime with
    ⟨created, hnew, -⟩ | ⟨fd, created, hnew, hcreated, hwaiting, hmem⟩
  · simp only [hnew]
    intro hresult
    exact absurd hresult (Nat.succ_ne_zero 1)
  · simp only [hnew]
    exact fun hresult ↦ ⟨fd, listens_watch hcreated (hwaiting.trans hidle) hmem hresult⟩

/-- A kernel that does everything it is asked for. -/
def willing (fd : ℕ) : Answers where
  gpio_export _ := true
  gpio_set_direction _ := true
  gpio_set_edge _ := true
  gpio_unexport _ := true
  open_value_file := some fd
  epoll_create := true
  epoll_ctl := true
  pthread_create := true

/-- GPIO 4 is watched with a bounce time of 200 ms and the callback 7. -/
def button : Events :=
  initial.call (willing 5) (.add_event_detect 4 .RISING_EDGE 200 (some 7))

/-- The switch bounces while the program adds another pin. -/
def presses : List Action :=
  [.event 5 true 1000000, .event 5 true 1100000, .event 5 true 1150000,
    .call (willing 6) (.add_event_detect 17 .BOTH_EDGE (-666) none), .event 5 true 1400000]

/-- The second press comes too early. -/
example : (button.run presses).toOption.map (fun events ↦ events.callsOf 4) =
    some [⟨4, 7, 1100000⟩, ⟨4, 7, 1400000⟩] := by
  decide

end PiFunk.RpiGpio.Events
