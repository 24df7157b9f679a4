import PiFunk.Library.KeyedList
import PiFunk.RpiGpio.EventGpio

/-!
# What the records stand for

There is one record for a pin that is watched, with one file open for it, and the descriptors that
the thread waits for are those of the records that say so.  So an event always finds its record, and
the clean-up at the end gives everything back.
-/

namespace PiFunk.RpiGpio.Events

open KeyedList

/-- The records agree with one another and with the kernel. -/
structure Kept (events : Events) : Prop where
  pins : (events.gpio_list.map Gpios.gpio).Nodup
  descriptors : (events.gpio_list.map Gpios.value_fd).Nodup
  /-- The open files are those of the records. -/
  files : events.files = events.gpio_list.map Gpios.value_fd
  edges : ∀ g ∈ events.gpio_list, g.edge.isSome
  exported : ∀ g ∈ events.gpio_list, events.exported g.gpio = true
  /-- The thread waits for the records that were added to it. -/
  watched : ∀ fd, fd ∈ events.epfd_thread.getD [] ↔
    ∃ g ∈ events.gpio_list, g.value_fd = fd ∧ g.thread_added = true
  /-- The program waits for the pin it was called for. -/
  awaited : ∀ fd, fd ∈ events.epfd_blocking.getD [] ↔
    ∃ g ∈ events.gpio_list, g.value_fd = fd ∧ ∃ initial_edge,
      events.waiting = some (g.gpio, initial_edge)
  waiting : ∀ gpio initial_edge, events.waiting = some (gpio, initial_edge) →
    gpio ∈ events.gpio_list.map Gpios.gpio
  flagged : ∀ gpio, events.event_occurred gpio = true → gpio ∈ events.gpio_list.map Gpios.gpio
  callbacks : ∀ gpio ∈ events.callbacks, gpio ∈ events.gpio_list.map Gpios.gpio

/-- Nothing of the library is left in use, and no flag is set; the Python functions stay in their
own list. -/
structure Released (events : Events) : Prop where
  gpio_list : events.gpio_list = []
  callbacks : events.callbacks = []
  files : events.files = []
  epfd_thread : events.epfd_thread = none
  epfd_blocking : events.epfd_blocking = none
  thread_running : events.thread_running = false
  event_occurred : ∀ gpio, events.event_occurred gpio = false

variable {events : Events}

/-! ## Records -/

theorem get_gpio_eq (hkept : events.Kept) {g : Gpios} (hmem : g ∈ events.gpio_list) :
    events.get_gpio g.gpio = some g :=
  find?_key hkept.pins hmem

theorem mem_of_get_gpio {gpio : ℕ} {g : Gpios} (hfound : events.get_gpio gpio = some g) :
    g ∈ events.gpio_list ∧ g.gpio = gpio :=
  mem_of_find?_key hfound

theorem get_gpio_eq_none_iff {gpio : ℕ} :
    events.get_gpio gpio = none ↔ gpio ∉ events.gpio_list.map Gpios.gpio :=
  find?_key_eq_none_iff

/-- Edge detection was added for a pin exactly when there is a record for it. -/
theorem gpio_event_added_eq_none_iff (hkept : events.Kept) {gpio : ℕ} :
    events.gpio_event_added gpio = none ↔ gpio ∉ events.gpio_list.map Gpios.gpio := by
  rw [← get_gpio_eq_none_iff, gpio_event_added]
  cases hfound : events.get_gpio gpio with
  | none => simp
  | some g =>
    have hedge := hkept.edges g (mem_of_get_gpio hfound).1
    simpa [Option.isSome_iff_ne_none] using hedge

/-- Rewriting a record keeps what its new and its old value have in common. -/
theorem map_put {β : Type*} (read : Gpios → β) {record : Gpios}
    (hread : ∀ g ∈ events.gpio_list, g.value_fd = record.value_fd → read g = read record) :
    (events.put record).gpio_list.map read = events.gpio_list.map read := by
  unfold put
  rw [List.map_map]
  refine List.map_congr_left fun g hmem ↦ ?_
  by_cases hfd : g.value_fd = record.value_fd
  · simp [hfd, hread g hmem hfd]
  · simp [hfd]

theorem mem_put {record g : Gpios} (hmem : g ∈ (events.put record).gpio_list) :
    g = record ∨ g ∈ events.gpio_list ∧ g.value_fd ≠ record.value_fd := by
  unfold put at hmem
  obtain ⟨old, hold, hg⟩ := List.mem_map.mp hmem
  by_cases hfd : old.value_fd = record.value_fd
  · rw [if_pos hfd] at hg
    exact .inl hg.symm
  · rw [if_neg hfd] at hg
    exact .inr ⟨hg ▸ hold, hg ▸ hfd⟩

theorem mem_put_self {record g : Gpios} (hmem : g ∈ events.gpio_list)
    (hfd : g.value_fd = record.value_fd) : record ∈ (events.put record).gpio_list :=
  List.mem_map.mpr ⟨g, hmem, if_pos hfd⟩

theorem mem_put_of_ne {record g : Gpios} (hmem : g ∈ events.gpio_list)
    (hfd : g.value_fd ≠ record.value_fd) : g ∈ (events.put record).gpio_list :=
  List.mem_map.mpr ⟨g, hmem, if_neg hfd⟩

theorem Kept.put_watched (hkept : events.Kept) {g : Gpios} (hmem : g ∈ events.gpio_list)
    (record : Gpios) (epfd_thread : Option (List ℕ)) (hfd : record.value_fd = g.value_fd)
    (hgpio : record.gpio = g.gpio) (hedge : record.edge.isSome)
    (hwatched : ∀ fd, fd ∈ epfd_thread.getD [] ↔
      fd = record.value_fd ∧ record.thread_added = true ∨
        fd ≠ record.value_fd ∧ fd ∈ events.epfd_thread.getD []) :
    (({ events with epfd_thread } : Events).put record).Kept := by
  have hold : ∀ {other : Gpios}, other ∈ events.gpio_list → other.value_fd = record.value_fd →
      other = g := by
    intro other hother heq
    exact (key_eq_iff hkept.descriptors hother hmem).mp (heq.trans hfd)
  have hpins : (events.put record).gpio_list.map Gpios.gpio = events.gpio_list.map Gpios.gpio :=
    map_put Gpios.gpio fun other hother heq ↦ by rw [hold hother heq, hgpio]
  have hfds : (events.put record).gpio_list.map Gpios.value_fd =
      events.gpio_list.map Gpios.value_fd :=
    map_put Gpios.value_fd fun other hother heq ↦ heq
  exact {
    pins := hpins ▸ hkept.pins
    descriptors := hfds ▸ hkept.descriptors
    files := hkept.files.trans hfds.symm
    edges := by
      intro other hother
      rcases mem_put hother with rfl | ⟨hbefore, -⟩
      · exact hedge
      · exact hkept.edges other hbefore
    exported := by
      intro other hother
      rcases mem_put hother with rfl | ⟨hbefore, -⟩
      · rw [hgpio]
        exact hkept.exported g hmem
      · exact hkept.exported other hbefore
    watched := by
      intro fd
      change fd ∈ epfd_thread.getD [] ↔ _
      rw [hwatched fd, hkept.watched fd]
      constructor
      · rintro (⟨rfl, hadded⟩ | ⟨hne, other, hother, rfl, hadded⟩)
        · exact ⟨record, mem_put_self hmem hfd.symm, rfl, hadded⟩
        · exact ⟨other, mem_put_of_ne hother hne, rfl, hadded⟩
      · rintro ⟨other, hother, rfl, hadded⟩
        rcases mem_put hother with rfl | ⟨hbefore, hne⟩
        · exact .inl ⟨rfl, hadded⟩
        · exact .inr ⟨hne, other, hbefore, rfl, hadded⟩
    awaited := by
      intro fd
      change fd ∈ events.epfd_blocking.getD [] ↔ _
      rw [hkept.awaited fd]
      constructor
      · rintro ⟨other, hother, rfl, initial_edge, hwaiting⟩
        by_cases heq : other.value_fd = record.value_fd
        · refine ⟨record, mem_put_self hother heq, heq.symm, initial_edge, ?_⟩
          rwa [hgpio, ← hold hother heq]
        · exact ⟨other, mem_put_of_ne hother heq, rfl, initial_edge, hwaiting⟩
      · rintro ⟨other, hother, rfl, initial_edge, hwaiting⟩
        rcases mem_put hother with rfl | ⟨hbefore, -⟩
        · exact ⟨g, hmem, hfd.symm, initial_edge, hgpio ▸ hwaiting⟩
        · exact ⟨other, hbefore, rfl, initial_edge, hwaiting⟩
    waiting := hpins.symm ▸ hkept.waiting
    flagged := hpins.symm ▸ hkept.flagged
    callbacks := hpins.symm ▸ hkept.callbacks }

theorem Kept.put (hkept : events.Kept) {g record : Gpios} (hmem : g ∈ events.gpio_list)
    (hfd : record.value_fd = g.value_fd) (hgpio : record.gpio = g.gpio)
    (hedge : record.edge.isSome) (hadded : record.thread_added = g.thread_added) :
    (events.put record).Kept := by
  refine hkept.put_watched hmem record events.epfd_thread hfd hgpio hedge fun fd ↦ ?_
  rw [hkept.watched fd, hfd, hadded]
  constructor
  · rintro ⟨other, hother, rfl, htrue⟩
    by_cases heq : other.value_fd = g.value_fd
    · obtain rfl := (key_eq_iff hkept.descriptors hother hmem).mp heq
      exact .inl ⟨rfl, htrue⟩
    · exact .inr ⟨heq, other, hother, rfl, htrue⟩
  · rintro (⟨rfl, htrue⟩ | ⟨-, hother⟩)
    · exact ⟨g, hmem, rfl, htrue⟩
    · exact hother

/-! ## Removal -/

theorem remove_edge_detect_of_none {answers : Answers} {gpio : ℕ}
    (hnone : events.get_gpio gpio = none) : events.remove_edge_detect answers gpio = events := by
  rw [remove_edge_detect, hnone]

theorem remove_edge_detect_of_some (hkept : events.Kept) {answers : Answers} {gpio : ℕ} {g : Gpios}
    (hfound : events.get_gpio gpio = some g) :
    events.remove_edge_detect answers gpio =
      { events with
        gpio_list := events.gpio_list.filter fun other ↦ decide (other.gpio ≠ gpio)
        callbacks := events.callbacks.filter (· ≠ gpio)
        event_occurred := Function.update events.event_occurred gpio false
        epfd_thread := events.epfd_thread.map fun fds ↦ fds.filter (· ≠ g.value_fd)
        epfd_blocking := events.epfd_blocking.map fun fds ↦ fds.filter (· ≠ g.value_fd)
        files := events.files.filter (· ≠ g.value_fd)
        exported :=
          if answers.gpio_unexport gpio then Function.update events.exported gpio false
          else events.exported
        edges :=
          if answers.gpio_set_edge gpio then Function.update events.edges gpio none
          else events.edges } := by
  rw [remove_edge_detect, hfound, ← eraseP_key hkept.pins gpio]
  rfl

/-- The record of the pin goes, and no other. -/
theorem remove_gpio_list (hkept : events.Kept) (answers : Answers) (gpio : ℕ) :
    (events.remove_edge_detect answers gpio).gpio_list =
      events.gpio_list.filter fun g ↦ decide (g.gpio ≠ gpio) := by
  cases hfound : events.get_gpio gpio with
  | none =>
    rw [remove_edge_detect_of_none hfound, eq_comm, List.filter_eq_self]
    intro g hmem
    apply decide_eq_true
    rintro rfl
    exact get_gpio_eq_none_iff.mp hfound (List.mem_map_of_mem hmem)
  | some g => rw [remove_edge_detect_of_some hkept hfound]

/-- A descriptor is closed in what the program and the thread wait for, too. -/
theorem mem_getD_map_filter {fds : Option (List ℕ)} {closed fd : ℕ} :
    fd ∈ (fds.map fun fds ↦ fds.filter (· ≠ closed)).getD [] ↔ fd ∈ fds.getD [] ∧ fd ≠ closed := by
  cases fds with
  | none => simp
  | some fds => simp

/-- A flag that is set after another one was taken back was set before. -/
theorem flag_of_update {event_occurred : ℕ → Bool} {gpio pin : ℕ}
    (hflag : Function.update event_occurred gpio false pin = true) :
    pin ≠ gpio ∧ event_occurred pin = true := by
  by_cases hne : pin = gpio
  · rw [hne, Function.update_self] at hflag
    exact absurd hflag Bool.false_ne_true
  · rw [Function.update_of_ne hne] at hflag
    exact ⟨hne, hflag⟩

/-- Removing a pin while the program does not wait keeps the others. -/
theorem Kept.remove (hkept : events.Kept) (hidle : events.waiting = none) (answers : Answers)
    (gpio : ℕ) : (events.remove_edge_detect answers gpio).Kept := by
  cases hfound : events.get_gpio gpio with
  | none => rwa [remove_edge_detect_of_none hfound]
  | some g =>
    obtain ⟨hg, rfl⟩ := mem_of_get_gpio hfound
    have hsame := filter_ne_congr hkept.pins hkept.descriptors hg
    -- the records that stay have another pin and another descriptor
    have hmem : ∀ other, other ∈ (events.gpio_list.filter fun other ↦
        decide (other.gpio ≠ g.gpio)) ↔ other ∈ events.gpio_list ∧ other.gpio ≠ g.gpio := by
      intro other
      simp [List.mem_filter]
    have hfd : ∀ {other : Gpios}, other ∈ events.gpio_list →
        (other.gpio ≠ g.gpio ↔ other.value_fd ≠ g.value_fd) := by
      intro other hother
      rw [not_iff_not, key_eq_iff hkept.pins hother hg, key_eq_iff hkept.descriptors hother hg]
    have hpin : ∀ {pin : ℕ}, pin ∈ events.gpio_list.map Gpios.gpio → pin ≠ g.gpio →
        pin ∈ (events.gpio_list.filter fun other ↦
          decide (other.gpio ≠ g.gpio)).map Gpios.gpio := by
      intro pin hpin hne
      obtain ⟨other, hother, rfl⟩ := List.mem_map.mp hpin
      exact List.mem_map_of_mem ((hmem other).mpr ⟨hother, hne⟩)
    rw [remove_edge_detect_of_some hkept hfound]
    exact {
      pins := hkept.pins.sublist (List.filter_sublist.map Gpios.gpio)
      descriptors := hkept.descriptors.sublist (List.filter_sublist.map Gpios.value_fd)
      files := by
        dsimp only
        rw [hkept.files, hsame, List.filter_map]
        rfl
      edges := fun other hother ↦ hkept.edges other ((hmem other).mp hother).1
      exported := by
        intro other hother
        obtain ⟨hold, hne⟩ := (hmem other).mp hother
        dsimp only
        split
        · rw [Function.update_of_ne hne, hkept.exported other hold]
        · exact hkept.exported other hold
      watched := by
        intro fd
        rw [mem_getD_map_filter, hkept.watched fd]
        constructor
        · rintro ⟨⟨other, hother, rfl, hadded⟩, hne⟩
          exact ⟨other, (hmem other).mpr ⟨hother, (hfd hother).mpr hne⟩, rfl, hadded⟩
        · rintro ⟨other, hother, rfl, hadded⟩
          obtain ⟨hold, hne⟩ := (hmem other).mp hother
          exact ⟨⟨other, hold, rfl, hadded⟩, (hfd hold).mp hne⟩
      awaited := by
        intro fd
        rw [mem_getD_map_filter, hkept.awaited fd]
        simp [hidle]
      waiting := by simp [hidle]
      flagged := by
        intro pin hoccurred
        obtain ⟨hne, hflag⟩ := flag_of_update hoccurred
        exact hpin (hkept.flagged pin hflag) hne
      callbacks := by
        intro pin hcallback
        obtain ⟨hold, hne⟩ := List.mem_filter.mp hcallback
        exact hpin (hkept.callbacks pin hold) (by simpa using hne) }

/-! ## New records -/

/-- A pin that has no record gets one, unless a file cannot be written or opened. -/
theorem newly_cases (hkept : events.Kept) (answers : Answers) (gpio : ℕ) (edge : Edge)
    (bouncetime : CInt) :
    (∃ exported, events.newly answers gpio edge bouncetime = (none, { events with exported }) ∧
      ∀ pin ≠ gpio, exported pin = events.exported pin) ∨
    ∃ fd ∉ events.files, ∃ edges, events.newly answers gpio edge bouncetime =
      (some ⟨gpio, fd, some edge, true, false, bouncetime, 0⟩,
        { events with
          gpio_list := ⟨gpio, fd, some edge, true, false, bouncetime, 0⟩ :: events.gpio_list
          files := fd :: events.files
          exported := Function.update events.exported gpio true
          edges }) := by
  by_cases hexport : ¬events.exported gpio ∧ ¬answers.gpio_export gpio
  · refine .inl ⟨events.exported, ?_, fun _ _ ↦ rfl⟩
    rw [newly, new_gpio, if_pos hexport]
  · by_cases hdirection : answers.gpio_set_direction gpio = true
    · cases hopen : answers.open_value_file.filter fun fd ↦ decide (fd ∉ events.files) with
      | none =>
        refine .inl ⟨({ events with
          exported := Function.update events.exported gpio true } : Events).gpio_unexport
          answers gpio |>.exported, ?_, ?_⟩
        · rw [newly, new_gpio, if_neg hexport, if_pos hdirection]
          simp only [hopen]
          rfl
        · intro pin hpin
          dsimp only [gpio_unexport]
          split
          · rw [Function.update_of_ne hpin, Function.update_of_ne hpin]
          · rw [Function.update_of_ne hpin]
      | some fd =>
        have hfd : fd ∉ events.files := by
          simpa using (Option.filter_eq_some_iff.mp hopen).2
        have hold : ∀ g ∈ events.gpio_list, g.value_fd ≠ fd := by
          rintro g hmem rfl
          exact hfd (hkept.files ▸ List.mem_map_of_mem hmem)
        refine .inr ⟨fd, hfd, (events.gpio_set_edge answers gpio (some edge)).edges, ?_⟩
        rw [newly, new_gpio, if_neg hexport, if_pos hdirection]
        simp only [hopen, put, gpio_set_edge, List.map_cons, if_true]
        congr 3
        exact (List.map_congr_left fun g hmem ↦ if_neg (hold g hmem)).trans (List.map_id _)
    · refine .inl ⟨Function.update events.exported gpio true, ?_, ?_⟩
      · rw [newly, new_gpio, if_neg hexport, if_neg hdirection]
      · intro pin hpin
        exact Function.update_of_ne hpin _ _

/-- A pin whose files cannot be used gets no record. -/
theorem Kept.export (hkept : events.Kept) {exported : ℕ → Bool}
    (hexported : ∀ g ∈ events.gpio_list, exported g.gpio = events.exported g.gpio) :
    ({ events with exported } : Events).Kept :=
  { hkept with
    exported := fun g hmem ↦ (hexported g hmem).trans (hkept.exported g hmem) }

theorem Kept.enlist (hkept : events.Kept) {gpio fd : ℕ}
    (hgpio : gpio ∉ events.gpio_list.map Gpios.gpio) (hfd : fd ∉ events.files) (edge : Edge)
    (bouncetime : CInt) (edges : ℕ → Option Edge) :
    ({ events with
      gpio_list := ⟨gpio, fd, some edge, true, false, bouncetime, 0⟩ :: events.gpio_list
      files := fd :: events.files
      exported := Function.update events.exported gpio true
      edges } : Events).Kept where
  pins := List.nodup_cons.mpr ⟨hgpio, hkept.pins⟩
  descriptors := List.nodup_cons.mpr ⟨hkept.files ▸ hfd, hkept.descriptors⟩
  files := by
    dsimp only
    rw [hkept.files, List.map_cons]
  edges := by
    intro g hmem
    rcases List.mem_cons.mp hmem with rfl | hold
    · rfl
    · exact hkept.edges g hold
  exported := by
    intro g hmem
    rcases List.mem_cons.mp hmem with rfl | hold
    · dsimp only
      rw [Function.update_self]
    · have hne : g.gpio ≠ gpio := fun heq ↦ hgpio (heq ▸ List.mem_map_of_mem hold)
      exact (Function.update_of_ne hne _ _).trans (hkept.exported g hold)
  watched := by
    intro other
    rw [hkept.watched other]
    simp
  awaited := by
    intro other
    rw [hkept.awaited other]
    have hwaiting : ∀ initial_edge, events.waiting ≠ some (gpio, initial_edge) :=
      fun initial_edge heq ↦ hgpio (hkept.waiting gpio initial_edge heq)
    simp [hwaiting]
  waiting := fun pin initial_edge heq ↦
    List.mem_cons_of_mem gpio (hkept.waiting pin initial_edge heq)
  flagged := fun pin hflag ↦ List.mem_cons_of_mem gpio (hkept.flagged pin hflag)
  callbacks := fun pin hmem ↦ List.mem_cons_of_mem gpio (hkept.callbacks pin hmem)

theorem Kept.newly (hkept : events.Kept) (answers : Answers) {gpio : ℕ}
    (hgpio : gpio ∉ events.gpio_list.map Gpios.gpio) (edge : Edge) (bouncetime : CInt) :
    (∃ created : Events, events.newly answers gpio edge bouncetime = (none, created) ∧
      created.Kept) ∨
    ∃ (fd : ℕ) (created : Events), events.newly answers gpio edge bouncetime =
        (some ⟨gpio, fd, some edge, true, false, bouncetime, 0⟩, created) ∧
      created.Kept ∧ created.waiting = events.waiting ∧
      ⟨gpio, fd, some edge, true, false, bouncetime, 0⟩ ∈ created.gpio_list := by
  rcases newly_cases hkept answers gpio edge bouncetime with
    ⟨exported, hnew, hexported⟩ | ⟨fd, hfd, edges, hnew⟩
  · refine .inl ⟨_, hnew, hkept.export fun g hmem ↦ hexported g.gpio ?_⟩
    rintro rfl
    exact hgpio (List.mem_map_of_mem hmem)
  · exact .inr ⟨fd, _, hnew, hkept.enlist hgpio hfd edge bouncetime edges, rfl,
      List.mem_cons_self⟩

/-! ## Calls -/

/-- `epoll_create` is called for what has no descriptor yet. -/
theorem getD_epoll_create {epfd : Option (List ℕ)} {epoll_create : Bool} {fds : List ℕ}
    (hfds : (if epfd.isNone ∧ epoll_create then some [] else epfd) = some fds) :
    epfd.getD [] = fds := by
  split at hfds
  · rename_i hnone
    rw [Option.isNone_iff_eq_none.mp hnone.1, Option.getD_none]
    exact Option.some.inj hfds
  · rw [hfds, Option.getD_some]

/-- The descriptor of a record is added to those that the thread waits for. -/
def addThread (events : Events) (g : Gpios) (fds : List ℕ) : Events :=
  ({ events with epfd_thread := some (g.value_fd :: fds) } : Events).put
    { g with thread_added := true }

/-- The thread is to wait for a pin: it does then, or the pin is removed after `epoll_ctl` or
before it, or there is no epoll descriptor. -/
theorem watch_cases (events : Events) (answers : Answers) (g : Gpios) :
    events.watch answers g = (2, events) ∨
    ∃ fds, events.epfd_thread.getD [] = fds ∧
      (events.watch answers g = (0, { events.addThread g fds with thread_running := true }) ∨
        events.watch answers g =
          (2, (events.addThread g fds).remove_edge_detect answers g.gpio) ∨
        events.watch answers g =
          (2, ({ events with epfd_thread := some fds } : Events).remove_edge_detect answers
            g.gpio)) := by
  unfold Events.watch
  split
  · exact .inl rfl
  · rename_i fds hfds
    refine .inr ⟨fds, getD_epoll_create hfds, ?_⟩
    dsimp only
    split
    · split
      · rename_i hrunning
        have hsame : ({ events.addThread g fds with thread_running := true } : Events) =
            events.addThread g fds := by
          rw [← hrunning]
          rfl
        rw [hsame]
        exact .inl rfl
      · split
        · exact .inl rfl
        · exact .inr (.inl rfl)
    · exact .inr (.inr rfl)

/-- The call succeeds only when the thread waits for the pin. -/
theorem watch_eq_of_zero {answers : Answers} {g : Gpios}
    (hresult : (events.watch answers g).1 = 0) :
    ∃ fds, events.epfd_thread.getD [] = fds ∧
      events.watch answers g = (0, { events.addThread g fds with thread_running := true }) := by
  rcases watch_cases events answers g with
    hwatch | ⟨fds, hfds, hwatch | hwatch | hwatch⟩
  · rw [hwatch] at hresult
    exact absurd hresult (Nat.succ_ne_zero 1)
  · exact ⟨fds, hfds, hwatch⟩
  · rw [hwatch] at hresult
    exact absurd hresult (Nat.succ_ne_zero 1)
  · rw [hwatch] at hresult
    exact absurd hresult (Nat.succ_ne_zero 1)

theorem Kept.open_thread (hkept : events.Kept) {fds : List ℕ}
    (hfds : events.epfd_thread.getD [] = fds) :
    ({ events with epfd_thread := some fds } : Events).Kept :=
  { hkept with watched := fun fd ↦ hfds ▸ hkept.watched fd }

theorem Kept.addThread (hkept : events.Kept) {fds : List ℕ}
    (hfds : events.epfd_thread.getD [] = fds) {g : Gpios} (hmem : g ∈ events.gpio_list) :
    (events.addThread g fds).Kept := by
  apply hkept.put_watched hmem { g with thread_added := true } (some (g.value_fd :: fds)) rfl rfl
    (hkept.edges g hmem)
  intro fd
  rw [hfds]
  by_cases heq : fd = g.value_fd
  · simp [heq]
  · simp [heq]

theorem Kept.watch (hkept : events.Kept) (hidle : events.waiting = none) {g : Gpios}
    (hmem : g ∈ events.gpio_list) (answers : Answers) : (events.watch answers g).2.Kept := by
  rcases watch_cases events answers g with
    hwatch | ⟨fds, hfds, hwatch | hwatch | hwatch⟩
  · rw [hwatch]
    exact hkept
  · rw [hwatch]
    exact { hkept.addThread hfds hmem with }
  · rw [hwatch]
    exact (hkept.addThread hfds hmem).remove hidle answers g.gpio
  · rw [hwatch]
    exact (hkept.open_thread hfds).remove hidle answers g.gpio

theorem Kept.add_edge_detect (hkept : events.Kept) (hidle : events.waiting = none)
    (answers : Answers) (gpio : ℕ) (edge : Edge) (bouncetime : CInt) :
    (events.add_edge_detect answers gpio edge bouncetime).2.Kept := by
  unfold Events.add_edge_detect
  cases hadded : events.gpio_event_added gpio with
  | none =>
    have hgpio := (gpio_event_added_eq_none_iff hkept).mp hadded
    rcases hkept.newly answers hgpio edge bouncetime with
      ⟨created, hnew, hcreated⟩ | ⟨fd, created, hnew, hcreated, hwaiting, hmem⟩
    · simp only [hnew]
      exact hcreated
    · simp only [hnew]
      exact hcreated.watch (hwaiting.trans hidle) hmem answers
  | some i =>
    dsimp only
    split
    · cases hfound : events.get_gpio gpio with
      | none => exact hkept
      | some g =>
        dsimp only
        split
        · exact hkept
        · exact hkept.watch hidle (mem_of_get_gpio hfound).1 answers
    · exact hkept

theorem mem_of_watch {g : Gpios} {answers : Answers} (hmem : g ∈ events.gpio_list)
    (hresult : (events.watch answers g).1 = 0) :
    g.gpio ∈ (events.watch answers g).2.gpio_list.map Gpios.gpio := by
  obtain ⟨fds, -, hwatch⟩ := watch_eq_of_zero hresult
  rw [hwatch]
  exact List.mem_map.mpr ⟨{ g with thread_added := true }, mem_put_self hmem rfl, rfl⟩

/-- After `add_edge_detect` has succeeded the pin has a record. -/
theorem mem_pins_add_edge_detect (hkept : events.Kept) (answers : Answers) (gpio : ℕ) (edge : Edge)
    (bouncetime : CInt) :
    (events.add_edge_detect answers gpio edge bouncetime).1 = 0 →
      gpio ∈ (events.add_edge_detect answers gpio edge bouncetime).2.gpio_list.map Gpios.gpio := by
  unfold Events.add_edge_detect
  cases hadded : events.gpio_event_added gpio with
  | none =>
    have hgpio := (gpio_event_added_eq_none_iff hkept).mp hadded
    rcases hkept.newly answers hgpio edge bouncetime with
      ⟨created, hnew, -⟩ | ⟨fd, created, hnew, -, -, hmem⟩
    · simp only [hnew]
      intro hresult
      exact absurd hresult (Nat.succ_ne_zero 1)
    · simp only [hnew]
      exact mem_of_watch hmem
  | some i =>
    dsimp only
    split
    · cases hfound : events.get_gpio gpio with
      | none =>
        intro hresult
        exact absurd hresult (Nat.succ_ne_zero 0)
      | some g =>
        obtain ⟨hmem, rfl⟩ := mem_of_get_gpio hfound
        dsimp only
        split
        · intro hresult
          exact absurd hresult (Nat.succ_ne_zero 0)
        · exact mem_of_watch hmem
    · intro hresult
      exact absurd hresult (Nat.succ_ne_zero 0)

theorem Kept.await (hkept : events.Kept) (hidle : events.waiting = none) {g : Gpios}
    (hmem : g ∈ events.gpio_list) (answers : Answers) : (events.await answers g).Kept := by
  have hnone : ∀ fd, fd ∉ events.epfd_blocking.getD [] := by
    intro fd hfd
    rw [hkept.awaited fd] at hfd
    simp [hidle] at hfd
  unfold Events.await
  split
  · exact hkept
  · rename_i fds hfds
    have hsame : events.epfd_blocking.getD [] = fds := getD_epoll_create hfds
    split
    · refine { hkept with awaited := fun fd ↦ ?_, waiting := fun gpio initial_edge heq ↦ ?_ }
      · have hempty : fd ∉ fds := hsame ▸ hnone fd
        dsimp only
        rw [Option.getD_some, List.mem_cons, or_iff_left hempty]
        constructor
        · rintro rfl
          exact ⟨g, hmem, rfl, true, rfl⟩
        · rintro ⟨other, hother, rfl, initial_edge, heq⟩
          have hgpio : g.gpio = other.gpio := (Prod.mk.inj (Option.some.inj heq)).1
          rw [(key_eq_iff hkept.pins hmem hother).mp hgpio]
      · have hgpio : g.gpio = gpio := (Prod.mk.inj (Option.some.inj heq)).1
        exact hgpio ▸ List.mem_map_of_mem hmem
    · exact { hkept with awaited := fun fd ↦ hsame ▸ hkept.awaited fd }

theorem Kept.blocking_wait_for_edge (hkept : events.Kept) (hidle : events.waiting = none)
    (answers : Answers) (gpio : ℕ) (edge : Edge) (bouncetime : CInt) :
    (events.blocking_wait_for_edge answers gpio edge bouncetime).Kept := by
  unfold Events.blocking_wait_for_edge
  split
  · exact hkept
  · cases hadded : events.gpio_event_added gpio with
    | none =>
      have hgpio := (gpio_event_added_eq_none_iff hkept).mp hadded
      rcases hkept.newly answers hgpio edge bouncetime with
        ⟨created, hnew, hcreated⟩ | ⟨fd, created, hnew, hcreated, hwaiting, hmem⟩
      · simp only [hnew]
        exact hcreated
      · simp only [hnew]
        exact hcreated.await (hwaiting.trans hidle) hmem answers
    | some ed =>
      cases hfound : events.get_gpio gpio with
      | none => exact hkept
      | some g =>
        have hmem := (mem_of_get_gpio hfound).1
        dsimp only
        split
        · split
          · exact hkept
          · exact hkept.await hidle hmem answers
        · have hedge : (events.gpio_set_edge answers gpio (some edge)).Kept := { hkept with }
          have hput : ((events.gpio_set_edge answers gpio (some edge)).put
              { g with edge := some edge, bouncetime }).Kept :=
            hedge.put hmem rfl rfl rfl rfl
          exact hput.await hidle (mem_put_self hmem rfl) answers

theorem waiting_remove (events : Events) (answers : Answers) (gpio : ℕ) :
    (events.remove_edge_detect answers gpio).waiting = events.waiting := by
  unfold remove_edge_detect
  cases events.get_gpio gpio with
  | none => rfl
  | some g => rfl

theorem Kept.foldl_remove (answers : Answers) (gpio : Option ℕ) (snapshot : List Gpios)
    (hkept : events.Kept) (hidle : events.waiting = none) :
    let cleaned := snapshot.foldl (fun events g ↦
      if gpio = none ∨ gpio = some g.gpio then events.remove_edge_detect answers g.gpio else events)
      events
    cleaned.Kept ∧ cleaned.waiting = none ∧ (gpio = none → cleaned.gpio_list =
      events.gpio_list.filter fun other ↦ decide (other.gpio ∉ snapshot.map Gpios.gpio)) := by
  induction snapshot generalizing events with
  | nil => simp [hkept, hidle]
  | cons g rest ih =>
    rw [List.foldl_cons]
    by_cases hpin : gpio = none ∨ gpio = some g.gpio
    · rw [if_pos hpin]
      have hremove := hkept.remove hidle answers g.gpio
      have hwaiting := (waiting_remove events answers g.gpio).trans hidle
      obtain ⟨hcleaned, hstill, hlist⟩ := ih hremove hwaiting
      refine ⟨hcleaned, hstill, fun hnone ↦ ?_⟩
      rw [hlist hnone, remove_gpio_list hkept, List.filter_filter]
      refine List.filter_congr fun other hother ↦ ?_
      rw [List.map_cons, ← Bool.decide_and, decide_eq_decide, List.mem_cons, not_or, and_comm]
    · rw [if_neg hpin]
      obtain ⟨hcleaned, hstill, hlist⟩ := ih hkept hidle
      exact ⟨hcleaned, hstill, fun hnone ↦ absurd (.inl hnone) hpin⟩

theorem Kept.event_cleanup (hkept : events.Kept) (hidle : events.waiting = none)
    (answers : Answers) (gpio : Option ℕ) : (events.event_cleanup answers gpio).Kept := by
  obtain ⟨hcleaned, hstill, -⟩ :=
    Kept.foldl_remove answers gpio events.gpio_list hkept hidle
  unfold Events.event_cleanup
  dsimp only
  split
  · rename_i hempty
    have hnil := List.isEmpty_iff.mp hempty
    exact { hcleaned with
      watched := fun fd ↦ by simp [hnil]
      awaited := fun fd ↦ by simp [hnil] }
  · exact hcleaned

/-- `event_cleanup_all` gives everything back. -/
theorem released_event_cleanup (hkept : events.Kept) (hidle : events.waiting = none)
    (answers : Answers) : (events.event_cleanup answers none).Released := by
  obtain ⟨hcleaned, -, hlist⟩ :=
    Kept.foldl_remove answers none events.gpio_list hkept hidle
  have hnil := hlist rfl
  have hempty : events.gpio_list.filter (fun other ↦
      decide (other.gpio ∉ events.gpio_list.map Gpios.gpio)) = [] := by
    apply List.filter_eq_nil_iff.mpr
    intro other hmem
    have hpin : other.gpio ∈ events.gpio_list.map Gpios.gpio := List.mem_map_of_mem hmem
    simpa using hpin
  rw [hempty] at hnil
  unfold Events.event_cleanup
  dsimp only
  rw [if_pos (List.isEmpty_iff.mpr hnil)]
  exact {
    gpio_list := hnil
    callbacks := by
      apply List.eq_nil_iff_forall_not_mem.mpr
      intro pin hmem
      have hpin := hcleaned.callbacks pin hmem
      rw [hnil] at hpin
      exact absurd hpin List.not_mem_nil
    files := by
      dsimp only
      rw [hcleaned.files, hnil, List.map_nil]
    epfd_thread := rfl
    epfd_blocking := rfl
    thread_running := rfl
    event_occurred := by
      intro pin
      apply Bool.eq_false_iff.mpr
      intro hflag
      have hpin := hcleaned.flagged pin hflag
      rw [hnil] at hpin
      exact absurd hpin List.not_mem_nil }

theorem Kept.add_py_callback (hkept : events.Kept) {gpio : ℕ}
    (hgpio : gpio ∈ events.gpio_list.map Gpios.gpio) (py_cb : ℕ) :
    (events.add_py_callback gpio py_cb).Kept :=
  { hkept with
    callbacks := by
      intro pin hmem
      rcases List.mem_append.mp hmem with hold | hnew
      · exact hkept.callbacks pin hold
      · rwa [List.mem_singleton.mp hnew] }

/-- A call of the program keeps the records in order. -/
theorem Kept.call (hkept : events.Kept) (hidle : events.waiting = none) (answers : Answers)
    (function : PyCall) : (events.call answers function).Kept := by
  cases function with
  | add_event_detect gpio edge bouncetime callback =>
    unfold Events.call
    dsimp only
    split
    · have hadd := hkept.add_edge_detect hidle answers gpio edge bouncetime
      cases callback with
      | none => exact hadd
      | some py_cb =>
        dsimp only
        split
        · rename_i hresult
          exact hadd.add_py_callback
            (mem_pins_add_edge_detect hkept answers gpio edge bouncetime hresult) py_cb
        · exact hadd
    · exact hkept
  | add_event_callback gpio py_cb =>
    unfold Events.call
    dsimp only
    split
    · rename_i hadded
      refine hkept.add_py_callback (not_not.mp fun hnot ↦ ?_) py_cb
      rw [(gpio_event_added_eq_none_iff hkept).mpr hnot] at hadded
      exact Bool.false_ne_true hadded
    · exact hkept
  | remove_event_detect gpio =>
    have hcallbacks : ({ events with
        py_callbacks := events.py_callbacks.filter fun cb ↦
          decide (cb.gpio ≠ gpio) } : Events).Kept := { hkept with }
    exact hcallbacks.remove hidle answers gpio
  | event_detected gpio =>
    exact { hkept with
      flagged := fun pin hflag ↦ hkept.flagged pin (flag_of_update hflag).2 }
  | wait_for_edge gpio edge bouncetime =>
    unfold Events.call
    dsimp only
    split
    · exact hkept.blocking_wait_for_edge hidle answers gpio edge bouncetime
    · exact hkept
  | cleanup gpio => exact hkept.event_cleanup hidle answers gpio

/-! ## Events -/

/-- There is no null pointer, and the records are in order. -/
def Safe (result : Except NullPointer Events) : Prop :=
  ∃ events : Events, result = .ok events ∧ events.Kept

/-- An event finds its record. -/
theorem Kept.poll_thread (hkept : events.Kept) (fd : ℕ) (readable : Bool) (timenow : ℕ) :
    Safe (events.poll_thread fd readable timenow) := by
  unfold Events.poll_thread
  split
  · rename_i hlistens
    split
    · obtain ⟨g, hmem, rfl, hadded⟩ := (hkept.watched fd).mp hlistens.2
      have hfound : events.get_gpio_from_value_fd g.value_fd = some g :=
        find?_key hkept.descriptors hmem
      have hedge := hkept.edges g hmem
      rw [hfound]
      dsimp only
      split
      · exact ⟨_, rfl, hkept.put hmem rfl rfl hedge rfl⟩
      · split
        · have hput : (events.put { g with lastcall := timenow }).Kept :=
            hkept.put hmem rfl rfl hedge rfl
          refine ⟨_, rfl, { hput with flagged := fun pin hflag ↦ ?_ }⟩
          have hupdate : Function.update events.event_occurred g.gpio true pin = true := hflag
          by_cases hne : pin = g.gpio
          · rw [hne]
            exact List.mem_map.mpr
              ⟨{ g with lastcall := timenow }, mem_put_self hmem rfl, rfl⟩
          · rw [Function.update_of_ne hne] at hupdate
            exact hput.flagged pin hupdate
        · exact ⟨events, rfl, hkept⟩
    · exact ⟨_, rfl, { hkept with }⟩
  · exact ⟨events, rfl, hkept⟩

theorem Kept.finish (hkept : events.Kept) {g : Gpios} (hmem : g ∈ events.gpio_list)
    {initial_edge : Bool} (hwaiting : events.waiting = some (g.gpio, initial_edge)) :
    ({ events with
      waiting := none
      epfd_blocking :=
        events.epfd_blocking.map fun fds ↦ fds.filter (· ≠ g.value_fd) } : Events).Kept := by
  refine { hkept with awaited := fun fd ↦ ?_, waiting := ?_ }
  · rw [mem_getD_map_filter, hkept.awaited fd]
    constructor
    · rintro ⟨⟨other, hother, rfl, initial_edge', heq⟩, hne⟩
      rw [hwaiting, Option.some.injEq, Prod.mk.injEq] at heq
      rw [(key_eq_iff hkept.pins hmem hother).mp heq.1] at hne
      exact absurd rfl hne
    · rintro ⟨other, hother, rfl, initial_edge', heq⟩
      cases heq
  · intro gpio initial_edge' heq
    cases heq

/-- The program finds the record it waits with. -/
theorem Kept.wakeup (hkept : events.Kept) (failed : Bool) (timenow : ℕ) :
    Safe (events.wakeup failed timenow) := by
  unfold Events.wakeup
  cases hwaiting : events.waiting with
  | none => exact ⟨events, rfl, hkept⟩
  | some pair =>
    obtain ⟨gpio, initial_edge⟩ := pair
    obtain ⟨g, hmem, rfl⟩ := List.mem_map.mp (hkept.waiting gpio initial_edge hwaiting)
    dsimp only
    rw [get_gpio_eq hkept hmem]
    dsimp only
    split
    · exact ⟨_, rfl, hkept.finish hmem hwaiting⟩
    · split
      · refine ⟨_, rfl, { hkept with awaited := fun fd ↦ ?_, waiting := ?_ }⟩
        · rw [hkept.awaited fd, hwaiting]
          simp
        · intro pin initial_edge' heq
          cases heq
          exact List.mem_map_of_mem hmem
      · split
        · have hput : (events.put { g with lastcall := timenow }).Kept :=
            hkept.put hmem rfl rfl (hkept.edges g hmem) rfl
          have hrecord : { g with lastcall := timenow } ∈
              (events.put { g with lastcall := timenow }).gpio_list := mem_put_self hmem rfl
          have hfinish := hput.finish hrecord hwaiting
          exact ⟨_, rfl, hfinish⟩
        · exact ⟨events, rfl, hkept⟩

/-! ## Runs -/

theorem Kept.step (hkept : events.Kept) (action : Action) : Safe (events.step action) := by
  cases action with
  | call answers function =>
    cases hwaiting : events.waiting with
    | none =>
      refine ⟨events.call answers function, ?_, hkept.call hwaiting answers function⟩
      rw [Events.step, hwaiting]
      rfl
    | some pair =>
      refine ⟨events, ?_, hkept⟩
      rw [Events.step, hwaiting]
      rfl
  | event fd readable timenow => exact hkept.poll_thread fd readable timenow
  | failed => exact ⟨_, rfl, { hkept with }⟩
  | wakeup failed timenow => exact hkept.wakeup failed timenow

theorem Kept.run (hkept : events.Kept) (actions : List Action) : Safe (events.run actions) := by
  induction actions generalizing events with
  | nil => exact ⟨events, rfl, hkept⟩
  | cons action rest ih =>
    obtain ⟨next, hstep, hnext⟩ := hkept.step action
    rw [Events.run, hstep]
    exact ih hnext

theorem kept_initial : Events.initial.Kept where
  pins := List.nodup_nil
  descriptors := List.nodup_nil
  files := rfl
  edges := fun _ hmem ↦ absurd hmem List.not_mem_nil
  exported := fun _ hmem ↦ absurd hmem List.not_mem_nil
  watched := by simp [initial]
  awaited := by simp [initial]
  waiting := by simp [initial]
  flagged := by simp [initial]
  callbacks := fun _ hmem ↦ absurd hmem List.not_mem_nil

/-- Whatever the calls, the events and the answers of the kernel are, an event always finds its
record and the files, the descriptors and the flags are those of the records; and when the program
does not wait for an edge, a clean-up of every pin gives all of them back. -/
theorem run_keeps (actions : List Action) :
    ∃ events : Events, Events.initial.run actions = .ok events ∧ events.Kept ∧
      (events.waiting = none → ∀ answers, (events.call answers (.cleanup none)).Released) := by
  obtain ⟨events, hrun, hkept⟩ := kept_initial.run actions
  exact ⟨events, hrun, hkept, fun hidle answers ↦ released_event_cleanup hkept hidle answers⟩

end PiFunk.RpiGpio.Events
