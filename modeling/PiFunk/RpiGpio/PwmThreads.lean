import PiFunk.Library.LinkedList
import PiFunk.RpiGpio.SoftPwm

/-!
# Records are freed once, and only when nobody uses them

The program and the threads share the records without a lock.  What makes this work is that a record
is in the list only while its thread goes round, and that a thread leaves its loop only after the
program has let go of the record: from then on the thread is the only one that knows the address.
-/

namespace PiFunk.RpiGpio

open LinkedList

/-- The part of a record that says who uses it. -/
structure Cell where
  gpio : ℕ
  running : Bool
  next : Option ℕ

/-- What a record says about its use. -/
def Pwm.cell (record : Pwm) : Cell := ⟨record.gpio, record.running, record.next⟩

/-- The records that are allocated. -/
def System.cells (system : System) : ℕ → Option Cell := Option.map Pwm.cell ∘ system.memory

/-- The pins that the records are for. -/
def pins (cells : ℕ → Option Cell) : ℕ → Option ℕ := Option.map Cell.gpio ∘ cells

/-- Which of the records are running. -/
def running (cells : ℕ → Option Cell) : ℕ → Option Bool := Option.map Cell.running ∘ cells

/-- The pointers between the records. -/
def pointer (cells : ℕ → Option Cell) : ℕ → Option ℕ := (fun cell ↦ cell.bind Cell.next) ∘ cells

/-- The thread goes round its loop. -/
def Phase.looping : Phase → Bool
  | .testing => true
  | .high => true
  | .low => true
  | .cleaning => false
  | .freeing => false

/-- The record that the program has taken out of the list and still has to stop. -/
def Caller.detached : Caller → Option ℕ
  | .unlinked _ p _ => some p
  | .stopping _ temp _ _ => some temp
  | _ => none

/-- The program may still use the record. -/
def Known (nodes : List ℕ) (caller : Caller) (address : ℕ) : Prop :=
  address ∈ nodes ∨ caller.detached = some address

/-- The local variables of a call point into the list. -/
def Caller.Sound (cells : ℕ → Option Cell) (owners nodes : List ℕ) : Caller → Prop
  | .idle => True
  | .removing _ p prev =>
    ∃ front back, nodes = front ++ back ∧ p = back.head? ∧ prev = front.getLast?
  | .unlinked _ p prev =>
    ∃ front back, nodes = front ++ back ∧ p ∉ nodes ∧ (cells p).isSome ∧
      pointer cells p = back.head? ∧ prev = front.getLast?
  | .stopping _ temp p prev =>
    ∃ front back, nodes = front ++ back ∧ temp ∉ nodes ∧ (cells temp).isSome ∧
      p = back.head? ∧ prev = front.getLast?
  | .finding _ none _ => nodes = []
  | .finding gpio (some p) _ =>
    ∃ front back, nodes = front ++ p :: back ∧ ∀ node ∈ front, pins cells node ≠ some gpio
  | .found p _ => p ∈ nodes
  | .calculating p => p ∈ nodes
  | .creating p => p ∈ nodes ∧ p ∉ owners ∧ running cells p = some true
  | .existing _ p => ∃ front back, nodes = front ++ back ∧ p = back.head?

/-- The records and the threads are in order, with these records in the list. -/
structure Orderly (cells : ℕ → Option Cell) (pwm_list : Option ℕ) (caller : Caller)
    (threads : List (ℕ × Phase)) (nodes : List ℕ) : Prop where
  path : Path (pointer cells) pwm_list nodes none
  nodup : nodes.Nodup
  allocated : ∀ node ∈ nodes, (cells node).isSome
  /-- There is one record for a pin. -/
  single : ∀ left ∈ nodes, ∀ right ∈ nodes, pins cells left = pins cells right → left = right
  /-- There is one thread for a record. -/
  owners : (threads.map Prod.fst).Nodup
  owned : ∀ thread ∈ threads, (cells thread.1).isSome
  /-- The thread of a record that the program knows stays in its loop. -/
  looping : ∀ thread ∈ threads, Known nodes caller thread.1 →
    thread.2.looping = true ∧ running cells thread.1 = some true
  /-- The thread of any other record has been told to stop. -/
  stopped : ∀ thread ∈ threads, ¬Known nodes caller thread.1 → running cells thread.1 = some false
  caller : caller.Sound cells (threads.map Prod.fst) nodes

/-- The system is in order. -/
def System.Orderly (system : System) : Prop :=
  ∃ nodes, RpiGpio.Orderly system.cells system.pwm_list system.caller system.threads nodes

/-! ## Accesses -/

theorem access_of_isSome {system : System} {address : ℕ} (hcell : (system.cells address).isSome) :
    ∃ record, system.memory address = some record ∧ system.access address = .ok record ∧
      system.cells address = some record.cell := by
  unfold System.cells at hcell
  rw [Function.comp_apply, Option.isSome_map] at hcell
  obtain ⟨record, hrecord⟩ := Option.isSome_iff_exists.mp hcell
  refine ⟨record, hrecord, by rw [System.access, hrecord], ?_⟩
  rw [System.cells, Function.comp_apply, hrecord, Option.map_some]

theorem cells_store (system : System) (address : ℕ) (record : Pwm) :
    (system.store address record).cells =
      Function.update system.cells address (some record.cell) :=
  Function.comp_update _ _ _ _

theorem pins_update (cells : ℕ → Option Cell) (address : ℕ) (cell : Option Cell) :
    pins (Function.update cells address cell) =
      Function.update (pins cells) address (cell.map Cell.gpio) :=
  Function.comp_update _ _ _ _

theorem running_update (cells : ℕ → Option Cell) (address : ℕ) (cell : Option Cell) :
    running (Function.update cells address cell) =
      Function.update (running cells) address (cell.map Cell.running) :=
  Function.comp_update _ _ _ _

theorem pointer_update (cells : ℕ → Option Cell) (address : ℕ) (cell : Option Cell) :
    pointer (Function.update cells address cell) =
      Function.update (pointer cells) address (cell.bind Cell.next) :=
  Function.comp_update _ _ _ _

/-! ## What one access does -/

section Accesses

variable {cells : ℕ → Option Cell} {pwm_list : Option ℕ} {caller caller' : Caller}
  {threads : List (ℕ × Phase)} {nodes : List ℕ}

/-- The program moves on to another record of the list. -/
theorem Orderly.follow (horder : Orderly cells pwm_list caller threads nodes)
    (hdetached : caller'.detached = caller.detached)
    (hsound : caller'.Sound cells (threads.map Prod.fst) nodes) :
    Orderly cells pwm_list caller' threads nodes := by
  refine { horder with
    looping := fun thread hmem hknown ↦ horder.looping thread hmem ?_
    stopped := fun thread hmem hunknown ↦ horder.stopped thread hmem ?_
    caller := hsound }
  · rwa [Known, ← hdetached]
  · rwa [Known, ← hdetached]

/-- The pointer of a record in the list leads to the next record. -/
theorem Orderly.pointer_eq {front back : List ℕ} {p : ℕ}
    (horder : Orderly cells pwm_list caller threads nodes) (hnodes : nodes = front ++ p :: back) :
    pointer cells p = back.head? := by
  obtain ⟨middle, -, -, hback⟩ := path_append.mp (hnodes ▸ horder.path)
  exact hback.first_eq

/-- The records that are allocated are those that are for a pin. -/
theorem isSome_of_pins_eq {cells cells' : ℕ → Option Cell} (hpins : pins cells' = pins cells)
    {address : ℕ} (hcell : (cells address).isSome) : (cells' address).isSome := by
  have heq : (pins cells' address).isSome = (pins cells address).isSome := by rw [hpins]
  simp only [pins, Function.comp_apply, Option.isSome_map] at heq
  rwa [heq]

/-- A record is taken out of the list. -/
theorem Orderly.detach {cells' : ℕ → Option Cell} {pwm_list' : Option ℕ} {front back : List ℕ}
    {gpio p : ℕ} {prev : Option ℕ}
    (horder : Orderly cells pwm_list (.removing gpio (some p) prev) threads (front ++ p :: back))
    (hpins : pins cells' = pins cells) (hrunning : running cells' = running cells)
    (hpath : Path (pointer cells') pwm_list' (front ++ back) none)
    (hpointer : pointer cells' p = back.head?) (hprev : prev = front.getLast?) :
    Orderly cells' pwm_list' (.unlinked gpio p prev) threads (front ++ back) := by
  have hnodup := List.nodup_middle.mp horder.nodup
  have hsub : ∀ node ∈ front ++ back, node ∈ front ++ p :: back := by
    intro node hmem
    rw [List.mem_append] at hmem ⊢
    exact hmem.imp_right (List.mem_cons_of_mem p)
  have hknown : ∀ address, Known (front ++ back) (.unlinked gpio p prev) address ↔
      Known (front ++ p :: back) (.removing gpio (some p) prev) address := by
    intro address
    simp only [Known, Caller.detached, List.mem_append, List.mem_cons, Option.some.injEq,
      reduceCtorEq, or_false]
    rw [or_assoc, or_comm (a := address ∈ back), eq_comm]
  exact {
    path := hpath
    nodup := (List.nodup_cons.mp hnodup).2
    allocated := fun node hmem ↦ isSome_of_pins_eq hpins (horder.allocated node (hsub node hmem))
    single := fun left hleft right hright ↦
      hpins ▸ horder.single left (hsub left hleft) right (hsub right hright)
    owners := horder.owners
    owned := fun thread hmem ↦ isSome_of_pins_eq hpins (horder.owned thread hmem)
    looping := fun thread hmem hthread ↦
      hrunning ▸ horder.looping thread hmem ((hknown thread.1).mp hthread)
    stopped := fun thread hmem hthread ↦
      hrunning ▸ horder.stopped thread hmem fun hold ↦ hthread ((hknown thread.1).mpr hold)
    caller := ⟨front, back, rfl, (List.nodup_cons.mp hnodup).1,
      isSome_of_pins_eq hpins (horder.allocated p (List.mem_append_right front List.mem_cons_self)),
      hpointer, hprev⟩ }

theorem pins_rewrite {p : ℕ} {cell : Cell} (hcell : cells p = some cell) (record : Cell)
    (hgpio : record.gpio = cell.gpio) :
    pins (Function.update cells p (some record)) = pins cells := by
  rw [pins_update]
  refine Function.update_eq_self_iff.mpr ?_
  rw [pins, Function.comp_apply, hcell, Option.map_some, Option.map_some, hgpio]

theorem running_rewrite {p : ℕ} {cell : Cell} (hcell : cells p = some cell) (record : Cell)
    (hrunning : record.running = cell.running) :
    running (Function.update cells p (some record)) = running cells := by
  rw [running_update]
  refine Function.update_eq_self_iff.mpr ?_
  rw [running, Function.comp_apply, hcell, Option.map_some, Option.map_some, hrunning]

theorem pointer_rewrite {p : ℕ} {cell : Cell} (hcell : cells p = some cell) (record : Cell)
    (hnext : record.next = cell.next) :
    pointer (Function.update cells p (some record)) = pointer cells := by
  rw [pointer_update]
  refine Function.update_eq_self_iff.mpr ?_
  rw [pointer, Function.comp_apply, hcell, Option.bind_some, Option.bind_some, hnext]

/-- A record is taken out behind another one. -/
theorem Orderly.detach_behind {front back : List ℕ} {gpio p before : ℕ} {cell : Cell}
    (horder : Orderly cells pwm_list (.removing gpio (some p) (some before)) threads
      (front ++ [before] ++ p :: back))
    (hcell : cells before = some cell) :
    Orderly (Function.update cells before (some { cell with next := pointer cells p })) pwm_list
      (.unlinked gpio p (some before)) threads (front ++ [before] ++ back) := by
  have hne : p ≠ before := by
    rintro rfl
    have hnodup := List.nodup_middle.mp horder.nodup
    simp at hnodup
  have hpath : Path (pointer cells) pwm_list (front ++ before :: p :: back) none := by
    simpa using horder.path
  refine horder.detach (pins_rewrite hcell _ rfl) (running_rewrite hcell _ rfl) ?_ ?_ (by simp)
  · rw [pointer_update, Option.bind_some, List.append_assoc, List.singleton_append]
    exact hpath.unlink (by simpa using horder.nodup)
  · rw [pointer_update, Function.update_of_ne hne]
    exact horder.pointer_eq rfl

/-- The record that is out of the list is told to stop. -/
theorem Orderly.stop {gpio temp : ℕ} {p prev : Option ℕ} {cell : Cell}
    (horder : Orderly cells pwm_list (.stopping gpio temp p prev) threads nodes)
    (hcell : cells temp = some cell) :
    Orderly (Function.update cells temp (some { cell with running := false })) pwm_list
      (.removing gpio p prev) threads nodes := by
  obtain ⟨front, back, hnodes, htemp, -, hback, hprev⟩ := horder.caller
  have hpins := pins_rewrite hcell { cell with running := false } rfl
  refine { horder with
    path := pointer_rewrite hcell { cell with running := false } rfl ▸ horder.path
    allocated := fun node hmem ↦ isSome_of_pins_eq hpins (horder.allocated node hmem)
    single := hpins ▸ horder.single
    owned := fun thread hmem ↦ isSome_of_pins_eq hpins (horder.owned thread hmem)
    looping := fun thread hmem hknown ↦ ?_
    stopped := fun thread hmem hunknown ↦ ?_
    caller := ⟨front, back, hnodes, hback, hprev⟩ }
  · have hnode : thread.1 ∈ nodes := by simpa [Known, Caller.detached] using hknown
    have hne : thread.1 ≠ temp := fun heq ↦ htemp (heq ▸ hnode)
    rw [running_update, Function.update_of_ne hne]
    exact horder.looping thread hmem (.inl hnode)
  · by_cases heq : thread.1 = temp
    · rw [heq, running_update, Function.update_self, Option.map_some]
    · rw [running_update, Function.update_of_ne heq]
      refine horder.stopped thread hmem ?_
      simp only [Known, Caller.detached, Option.some.injEq, not_or] at hunknown ⊢
      exact ⟨hunknown.1, fun hold ↦ heq hold.symm⟩

/-- Whether a record in the list is running changes while it has no thread. -/
theorem Orderly.mark {p : ℕ} {cell : Cell} (horder : Orderly cells pwm_list caller threads nodes)
    (hcell : cells p = some cell) (hfree : p ∉ threads.map Prod.fst) (value : Bool)
    (hdetached : caller'.detached = caller.detached)
    (hsound : caller'.Sound (Function.update cells p (some { cell with running := value }))
      (threads.map Prod.fst) nodes) :
    Orderly (Function.update cells p (some { cell with running := value })) pwm_list caller' threads
      nodes := by
  have hpins := pins_rewrite hcell { cell with running := value } rfl
  have hrunning : ∀ thread ∈ threads,
      running (Function.update cells p (some { cell with running := value })) thread.1 =
        running cells thread.1 := by
    intro thread hmem
    have hne : thread.1 ≠ p := fun heq ↦ hfree (heq ▸ List.mem_map_of_mem hmem)
    rw [running_update, Function.update_of_ne hne]
  refine { horder with
    path := pointer_rewrite hcell { cell with running := value } rfl ▸ horder.path
    allocated := fun node hmem ↦ isSome_of_pins_eq hpins (horder.allocated node hmem)
    single := hpins ▸ horder.single
    owned := fun thread hmem ↦ isSome_of_pins_eq hpins (horder.owned thread hmem)
    looping := fun thread hmem hknown ↦ ?_
    stopped := fun thread hmem hunknown ↦ ?_
    caller := hsound }
  · rw [hrunning thread hmem]
    exact horder.looping thread hmem (by rwa [Known, ← hdetached])
  · rw [hrunning thread hmem]
    exact horder.stopped thread hmem (by rwa [Known, ← hdetached])

/-- A record that is not running has no thread. -/
theorem Orderly.notMem_owners {p : ℕ} (horder : Orderly cells pwm_list caller threads nodes)
    (hnode : p ∈ nodes) (hidle : running cells p ≠ some true) : p ∉ threads.map Prod.fst := by
  intro hmem
  obtain ⟨thread, hthread, rfl⟩ := List.mem_map.mp hmem
  exact hidle (horder.looping thread hthread (.inl hnode)).2

/-- A thread is created for a running record that has none. -/
theorem Orderly.create {p : ℕ}
    (horder : Orderly cells pwm_list (.creating p) threads nodes) :
    Orderly cells pwm_list .idle (threads ++ [(p, .testing)]) nodes := by
  obtain ⟨hnode, hfree, hrunning⟩ := horder.caller
  have howners : (threads ++ [(p, Phase.testing)]).map Prod.fst = threads.map Prod.fst ++ [p] := by
    rw [List.map_append, List.map_singleton]
  refine { horder with
    owners := ?_
    owned := fun thread hmem ↦ ?_
    looping := fun thread hmem hknown ↦ ?_
    stopped := fun thread hmem hunknown ↦ ?_
    caller := trivial }
  · rw [howners]
    refine horder.owners.append (List.nodup_singleton p) fun node hmem hsame ↦ hfree ?_
    rwa [← List.mem_singleton.mp hsame]
  all_goals rcases List.mem_append.mp hmem with hold | hnew
  · exact horder.owned thread hold
  · rw [List.mem_singleton.mp hnew]
    exact horder.allocated p hnode
  · exact horder.looping thread hold hknown
  · rw [List.mem_singleton.mp hnew]
    exact ⟨rfl, hrunning⟩
  · exact horder.stopped thread hold hunknown
  · rw [List.mem_singleton.mp hnew] at hunknown
    exact absurd (.inl hnode) hunknown

/-- A new record is added at the end of the list. -/
theorem Orderly.enlist {cells' : ℕ → Option Cell} {pwm_list' : Option ℕ} {gpio malloc : ℕ}
    (work : Work) (horder : Orderly cells pwm_list caller threads nodes)
    (hdetached : caller.detached = none) (hmalloc : cells malloc = none)
    (hgpio : ∀ node ∈ nodes, pins cells node ≠ some gpio)
    (hpins : pins cells' = Function.update (pins cells) malloc (some gpio))
    (hrunning : running cells' = Function.update (running cells) malloc (some false))
    (hpath : Path (pointer cells') pwm_list' (nodes ++ [malloc]) none) :
    Orderly cells' pwm_list' (.found malloc work) threads (nodes ++ [malloc]) := by
  have hne : ∀ {address : ℕ}, (cells address).isSome → address ≠ malloc := by
    rintro address hsome rfl
    simp [hmalloc] at hsome
  have hnode : ∀ node ∈ nodes, node ≠ malloc := fun node hmem ↦ hne (horder.allocated node hmem)
  have hthread : ∀ thread ∈ threads, thread.1 ≠ malloc :=
    fun thread hmem ↦ hne (horder.owned thread hmem)
  have hsome : ∀ {address : ℕ}, address ≠ malloc → (cells address).isSome →
      (cells' address).isSome := by
    intro address haddress hcell
    have heq : pins cells' address = pins cells address := by
      rw [hpins, Function.update_of_ne haddress]
    simpa only [pins, Function.comp_apply, Option.isSome_map, hcell] using
      congrArg Option.isSome heq
  have hknown : ∀ thread ∈ threads, Known (nodes ++ [malloc]) (.found malloc work) thread.1 ↔
      Known nodes caller thread.1 := by
    intro thread hmem
    have hfound : (Caller.found malloc work).detached = none := rfl
    simp [Known, hfound, hdetached, hthread thread hmem]
  have hnew : (cells' malloc).isSome := by
    have heq : pins cells' malloc = some gpio := by rw [hpins, Function.update_self]
    simpa only [pins, Function.comp_apply, Option.isSome_map, Option.isSome_some] using
      congrArg Option.isSome heq
  refine
    { path := hpath
      nodup := horder.nodup.append (List.nodup_singleton malloc) fun node hmem hsame ↦
        hnode node hmem (List.mem_singleton.mp hsame)
      allocated := fun node hmem ↦ ?_
      single := fun left hleft right hright heq ↦ ?_
      owners := horder.owners
      owned := fun thread hmem ↦ hsome (hthread thread hmem) (horder.owned thread hmem)
      looping := fun thread hmem hold ↦ ?_
      stopped := fun thread hmem hold ↦ ?_
      caller := List.mem_append_right nodes (List.mem_singleton_self malloc) }
  · rcases List.mem_append.mp hmem with hold | hsame
    · exact hsome (hnode node hold) (horder.allocated node hold)
    · rwa [List.mem_singleton.mp hsame]
  · rw [hpins] at heq
    rcases List.mem_append.mp hleft with hl | hl <;> rcases List.mem_append.mp hright with hr | hr
    · rw [Function.update_of_ne (hnode left hl), Function.update_of_ne (hnode right hr)] at heq
      exact horder.single left hl right hr heq
    · rw [List.mem_singleton.mp hr, Function.update_of_ne (hnode left hl),
        Function.update_self] at heq
      exact absurd heq (hgpio left hl)
    · rw [List.mem_singleton.mp hl, Function.update_of_ne (hnode right hr),
        Function.update_self] at heq
      exact absurd heq.symm (hgpio right hr)
    · rw [List.mem_singleton.mp hl, List.mem_singleton.mp hr]
  · rw [hrunning, Function.update_of_ne (hthread thread hmem)]
    exact horder.looping thread hmem ((hknown thread hmem).mp hold)
  · rw [hrunning, Function.update_of_ne (hthread thread hmem)]
    exact horder.stopped thread hmem (mt (hknown thread hmem).mpr hold)

/-- A new record is added behind the last one. -/
theorem Orderly.enlist_behind {front : List ℕ} {gpio malloc p : ℕ} {cell : Cell} (work : Work)
    (horder : Orderly cells pwm_list caller threads (front ++ [p]))
    (hdetached : caller.detached = none) (hmalloc : cells malloc = none)
    (hgpio : ∀ node ∈ front ++ [p], pins cells node ≠ some gpio) (hcell : cells p = some cell) :
    Orderly
      (Function.update (Function.update cells malloc (some ⟨gpio, false, none⟩)) p
        (some { cell with next := some malloc }))
      pwm_list (.found malloc work) threads (front ++ [p] ++ [malloc]) := by
  have hnot : malloc ∉ front ++ [p] := by
    intro hmem
    have hsome := horder.allocated malloc hmem
    rw [hmalloc] at hsome
    exact Bool.false_ne_true hsome
  have hne : p ≠ malloc := fun heq ↦ hnot (heq ▸ List.mem_append_right front (by simp))
  have hcell' : Function.update cells malloc (some ⟨gpio, false, none⟩) p = some cell := by
    rw [Function.update_of_ne hne, hcell]
  refine horder.enlist work hdetached hmalloc hgpio ?_ ?_ ?_
  · rw [pins_rewrite hcell' { cell with next := some malloc } rfl, pins_update, Option.map_some]
  · rw [running_rewrite hcell' { cell with next := some malloc } rfl, running_update,
      Option.map_some]
  · have hpath := horder.path.update_of_notMem hnot none
    have hnodup : (front ++ [p, malloc]).Nodup := by
      have happend := horder.nodup.append (List.nodup_singleton malloc)
        (List.disjoint_singleton.mpr hnot)
      rwa [List.append_assoc] at happend
    have hextend := hpath.extend (by rw [Function.update_self]) hnodup
    rw [pointer_update, pointer_update, Option.bind_some, Option.bind_some, List.append_assoc]
    exact hextend

/-- A thread takes a step in its loop, or leaves it. -/
theorem Orderly.turn {index p : ℕ} {phase phase' : Phase}
    (horder : Orderly cells pwm_list caller threads nodes)
    (hthread : threads[index]? = some (p, phase))
    (hphase : phase.looping = true → running cells p = some true → phase'.looping = true) :
    Orderly cells pwm_list caller (threads.set index (p, phase')) nodes := by
  have hmem : (p, phase) ∈ threads := List.mem_of_getElem? hthread
  have howners : (threads.set index (p, phase')).map Prod.fst = threads.map Prod.fst := by
    obtain ⟨hlt, hget⟩ := List.getElem?_eq_some_iff.mp hthread
    have hmap : index < (threads.map Prod.fst).length := by rwa [List.length_map]
    have hsame : (threads.map Prod.fst)[index] = p := by rw [List.getElem_map, hget]
    rw [List.map_set, ← hsame, List.set_getElem_self]
  have hold : ∀ thread ∈ threads.set index (p, phase'),
      thread ∈ threads ∨ thread = (p, phase') := fun thread ↦ List.mem_or_eq_of_mem_set
  refine { horder with
    owners := howners ▸ horder.owners
    owned := fun thread hset ↦ ?_
    looping := fun thread hset hknown ↦ ?_
    stopped := fun thread hset hunknown ↦ ?_
    caller := howners ▸ horder.caller }
  all_goals rcases hold thread hset with hbefore | rfl
  · exact horder.owned thread hbefore
  · exact horder.owned (p, phase) hmem
  · exact horder.looping thread hbefore hknown
  · obtain ⟨hlooping, hrunning⟩ := horder.looping (p, phase) hmem hknown
    exact ⟨hphase hlooping hrunning, hrunning⟩
  · exact horder.stopped thread hbefore hunknown
  · exact horder.stopped (p, phase) hmem hunknown

/-- A call keeps its place when a record that the program does not know goes away. -/
theorem Caller.Sound.release {owners owners' : List ℕ} {p : ℕ}
    (hsound : caller.Sound cells owners nodes) (hunknown : ¬Known nodes caller p)
    (howners : owners' ⊆ owners) :
    caller.Sound (Function.update cells p none) owners' nodes := by
  have hother : ∀ node ∈ nodes, node ≠ p := fun node hmem heq ↦ hunknown (.inl (heq ▸ hmem))
  cases caller with
  | idle => trivial
  | removing gpio next prev => exact hsound
  | unlinked gpio temp prev =>
    have hne : temp ≠ p := fun heq ↦ hunknown (.inr (heq ▸ rfl))
    obtain ⟨front, back, hnodes, hnot, hsome, hnext, hprev⟩ := hsound
    refine ⟨front, back, hnodes, hnot, ?_, ?_, hprev⟩
    · rwa [Function.update_of_ne hne]
    · rwa [pointer_update, Function.update_of_ne hne]
  | stopping gpio temp next prev =>
    have hne : temp ≠ p := fun heq ↦ hunknown (.inr (heq ▸ rfl))
    obtain ⟨front, back, hnodes, hnot, hsome, hnext, hprev⟩ := hsound
    refine ⟨front, back, hnodes, hnot, ?_, hnext, hprev⟩
    rwa [Function.update_of_ne hne]
  | finding gpio next work =>
    cases next with
    | none => exact hsound
    | some node =>
      obtain ⟨front, back, hnodes, hfront⟩ := hsound
      refine ⟨front, back, hnodes, fun other hmem ↦ ?_⟩
      rw [pins_update, Function.update_of_ne (hother other (hnodes ▸ List.mem_append_left _ hmem))]
      exact hfront other hmem
  | found node work => exact hsound
  | calculating node => exact hsound
  | creating node =>
    obtain ⟨hnode, hfree, hrunning⟩ := hsound
    refine ⟨hnode, fun hmem ↦ hfree (howners hmem), ?_⟩
    rwa [running_update, Function.update_of_ne (hother node hnode)]
  | existing gpio next => exact hsound

/-- A thread that has left its loop frees the record: nobody else has it. -/
theorem Orderly.free {index p : ℕ} (horder : Orderly cells pwm_list caller threads nodes)
    (hthread : threads[index]? = some (p, .freeing)) :
    Orderly (Function.update cells p none) pwm_list caller (threads.eraseIdx index) nodes := by
  have hmem : (p, Phase.freeing) ∈ threads := List.mem_of_getElem? hthread
  have hunknown : ¬Known nodes caller p := by
    intro hknown
    have hlooping : Phase.freeing.looping = true := (horder.looping _ hmem hknown).1
    exact Bool.false_ne_true hlooping
  have hnode : ∀ node ∈ nodes, node ≠ p := fun node hnode heq ↦ hunknown (.inl (heq ▸ hnode))
  have hsub : ∀ thread ∈ threads.eraseIdx index, thread ∈ threads :=
    fun thread hold ↦ List.mem_of_mem_eraseIdx hold
  have howners : ((threads.eraseIdx index).map Prod.fst).Sublist (threads.map Prod.fst) :=
    (List.eraseIdx_sublist threads index).map Prod.fst
  -- no other thread was started for this record
  have hthreads : ∀ thread ∈ threads.eraseIdx index, thread.1 ≠ p := by
    intro thread hold heq
    obtain ⟨other, hne, hother⟩ := List.mem_eraseIdx_iff_getElem?.mp hold
    have hlt := (List.getElem?_eq_some_iff.mp hthread).choose
    refine hne ((List.getElem?_inj (by rwa [List.length_map]) horder.owners).mp ?_).symm
    rw [List.getElem?_map, List.getElem?_map, hthread, hother, Option.map_some, Option.map_some,
      heq]
  have hpins : ∀ node ∈ nodes, pins (Function.update cells p none) node = pins cells node := by
    intro node hmem
    rw [pins_update, Function.update_of_ne (hnode node hmem)]
  refine
    { path := ?_
      nodup := horder.nodup
      allocated := fun node hmem ↦ ?_
      single := fun left hleft right hright heq ↦ ?_
      owners := horder.owners.sublist howners
      owned := fun thread hold ↦ ?_
      looping := fun thread hold hknown ↦ ?_
      stopped := fun thread hold hnot ↦ ?_
      caller := horder.caller.release hunknown howners.subset }
  · rw [pointer_update]
    exact horder.path.update_of_notMem (fun hmem ↦ hnode p hmem rfl) _
  · rw [Function.update_of_ne (hnode node hmem)]
    exact horder.allocated node hmem
  · rw [hpins left hleft, hpins right hright] at heq
    exact horder.single left hleft right hright heq
  · rw [Function.update_of_ne (hthreads thread hold)]
    exact horder.owned thread (hsub thread hold)
  · rw [running_update, Function.update_of_ne (hthreads thread hold)]
    exact horder.looping thread (hsub thread hold) hknown
  · rw [running_update, Function.update_of_ne (hthreads thread hold)]
    exact horder.stopped thread (hsub thread hold) hnot

end Accesses

/-! ## Steps -/

/-- There is no fault, and the system is in order. -/
def Safe (result : Except Fault System) : Prop :=
  ∃ system : System, result = .ok system ∧ system.Orderly

theorem Safe.of_orderly {system : System} {nodes : List ℕ}
    (horder : RpiGpio.Orderly system.cells system.pwm_list system.caller system.threads nodes) :
    Safe (.ok system) :=
  ⟨system, rfl, nodes, horder⟩

theorem Safe.of_store {system : System} {p : ℕ} {record : Pwm} {caller : Caller} {nodes : List ℕ}
    (horder : RpiGpio.Orderly (Function.update system.cells p (some record.cell)) system.pwm_list
      caller system.threads nodes) :
    Safe (.ok { system.store p record with caller }) := by
  rw [← cells_store] at horder
  exact Safe.of_orderly horder

theorem Safe.of_store_same {system : System} {p : ℕ} {record : Pwm} {caller : Caller}
    {nodes : List ℕ} (hcell : system.cells p = some record.cell)
    (horder : RpiGpio.Orderly system.cells system.pwm_list caller system.threads nodes) :
    Safe (.ok { system.store p record with caller }) := by
  have hsame : Function.update system.cells p (some record.cell) = system.cells := by
    rw [← hcell, Function.update_eq_self]
  rw [← hsame] at horder
  exact Safe.of_store horder

theorem Safe.of_access {system : System} {address : ℕ} {rest : Pwm → Except Fault System}
    (hcell : (system.cells address).isSome)
    (hrest : ∀ record, system.cells address = some record.cell → Safe (rest record)) :
    Safe (system.access address >>= rest) := by
  obtain ⟨record, -, haccess, heq⟩ := access_of_isSome hcell
  rw [haccess]
  exact hrest record heq

theorem pins_of_cell {cells : ℕ → Option Cell} {address : ℕ} {record : Pwm}
    (hcell : cells address = some record.cell) : pins cells address = some record.gpio := by
  rw [pins, Function.comp_apply, hcell]
  rfl

theorem running_of_cell {cells : ℕ → Option Cell} {address : ℕ} {record : Pwm}
    (hcell : cells address = some record.cell) : running cells address = some record.running := by
  rw [running, Function.comp_apply, hcell]
  rfl

theorem pointer_of_cell {cells : ℕ → Option Cell} {address : ℕ} {record : Pwm}
    (hcell : cells address = some record.cell) : pointer cells address = record.next := by
  rw [pointer, Function.comp_apply, hcell]
  rfl

theorem System.cells_eq_none {system : System} {address : ℕ}
    (hfree : ¬(system.memory address).isSome) : system.cells address = none := by
  rw [System.cells, Function.comp_apply, Option.not_isSome_iff_eq_none.mp hfree, Option.map_none]

theorem System.safe_unlink {system : System} {gpio p : ℕ} {prev : Option ℕ} {nodes : List ℕ}
    (horder : RpiGpio.Orderly system.cells system.pwm_list (.removing gpio (some p) prev)
      system.threads nodes) : Safe (system.unlink gpio p prev) := by
  obtain ⟨front, back, hnodes, hback, hprev⟩ := horder.caller
  obtain ⟨back, rfl⟩ := List.head?_eq_some_iff.mp hback.symm
  subst hnodes
  have hnext := horder.pointer_eq rfl
  refine Safe.of_access (horder.allocated p (by simp)) fun record hcell ↦ ?_
  rw [pointer_of_cell hcell] at hnext
  split
  · cases prev with
    | none =>
      obtain rfl : front = [] := List.getLast?_eq_none_iff.mp hprev.symm
      have hpath : Path (pointer system.cells) record.next ([] ++ back) none :=
        pointer_of_cell hcell ▸ horder.path.2
      exact Safe.of_orderly (horder.detach rfl rfl hpath (horder.pointer_eq rfl) hprev)
    | some before =>
      obtain ⟨front, rfl⟩ := List.getLast?_eq_some_iff.mp hprev.symm
      refine Safe.of_access (horder.allocated before (by simp)) fun previous hbefore ↦ ?_
      have hdetach := horder.detach_behind hbefore
      rw [pointer_of_cell hcell] at hdetach
      exact Safe.of_store hdetach
  · refine Safe.of_orderly (horder.follow rfl ⟨front ++ [p], back, ?_, hnext, ?_⟩)
    · rw [List.append_assoc, List.singleton_append]
    · rw [List.getLast?_concat]

theorem System.safe_first {system : System} {gpio malloc : ℕ} {work : Work}
    (horder : RpiGpio.Orderly system.cells system.pwm_list (.finding gpio none work)
      system.threads []) (hmalloc : system.cells malloc = none) :
    Safe (.ok { system.store malloc (add_new_pwm gpio) with
      pwm_list := some malloc, caller := .found malloc work }) := by
  have hpath : Path (pointer (Function.update system.cells malloc (some (add_new_pwm gpio).cell)))
      (some malloc) ([] ++ [malloc]) none := by
    refine ⟨rfl, ?_⟩
    rw [pointer_update, Function.update_self]
    rfl
  have hnew := horder.enlist work rfl hmalloc (by simp)
    (pins_update system.cells malloc (some (add_new_pwm gpio).cell)) (running_update ..) hpath
  rw [← cells_store] at hnew
  exact Safe.of_orderly hnew

theorem System.safe_find {system : System} {gpio p malloc : ℕ} {work : Work} {nodes : List ℕ}
    (hcaller : system.caller = .finding gpio (some p) work)
    (horder : RpiGpio.Orderly system.cells system.pwm_list (.finding gpio (some p) work)
      system.threads nodes) : Safe (system.find gpio p work malloc) := by
  obtain ⟨front, back, rfl, hfront⟩ := horder.caller
  have hnext := horder.pointer_eq rfl
  refine Safe.of_access (horder.allocated p (by simp)) fun record hcell ↦ ?_
  rw [pointer_of_cell hcell] at hnext
  split
  · exact Safe.of_orderly (horder.follow rfl (List.mem_append_right front List.mem_cons_self))
  · rename_i hgpio
    have hpin : ∀ node ∈ front ++ [p], pins system.cells node ≠ some gpio := by
      intro node hmem
      rcases List.mem_append.mp hmem with hold | hlast
      · exact hfront node hold
      · rw [List.mem_singleton.mp hlast, pins_of_cell hcell]
        simpa using hgpio
    split
    · rename_i next hsome
      obtain ⟨back, rfl⟩ := List.head?_eq_some_iff.mp (hnext.symm.trans hsome)
      exact Safe.of_orderly (horder.follow rfl ⟨front ++ [p], back, by simp, hpin⟩)
    · rename_i hnone
      obtain rfl := List.head?_eq_none_iff.mp (hnext.symm.trans hnone)
      split
      · exact Safe.of_orderly (hcaller ▸ horder)
      · rename_i hmalloc
        have hnew := horder.enlist_behind work rfl (System.cells_eq_none hmalloc) hpin hcell
        refine @Safe.of_store _ _ _ _ (front ++ [p] ++ [malloc]) ?_
        rw [cells_store]
        exact hnew

theorem System.safe_perform {system : System} {p : ℕ} {work : Work} {nodes : List ℕ}
    (horder : RpiGpio.Orderly system.cells system.pwm_list (.found p work) system.threads nodes) :
    Safe (system.perform p work) := by
  have hnode : p ∈ nodes := horder.caller
  refine Safe.of_access (horder.allocated p hnode) fun record hcell ↦ ?_
  cases work with
  | dutycycle dutycycle => exact Safe.of_store_same hcell (horder.follow rfl hnode)
  | frequency freq => exact Safe.of_store_same hcell (horder.follow rfl hnode)
  | start =>
    dsimp only
    split
    · exact Safe.of_orderly (horder.follow rfl trivial)
    · rename_i hidle
      have hrunning : running system.cells p ≠ some true := by
        rw [running_of_cell hcell]
        simpa using hidle
      have hfree := horder.notMem_owners hnode hrunning
      refine @Safe.of_store _ _ _ _ nodes (horder.mark hcell hfree true rfl ⟨hnode, hfree, ?_⟩)
      rw [running_update, Function.update_self]
      rfl

theorem System.safe_advance {system : System} (horder : system.Orderly) (malloc : ℕ)
    (created : Bool) : Safe (system.advance malloc created) := by
  obtain ⟨nodes, horder⟩ := horder
  unfold System.advance
  cases hcaller : system.caller with
  | idle => exact Safe.of_orderly horder
  | removing gpio p prev =>
    rw [hcaller] at horder
    cases p with
    | none => exact Safe.of_orderly (horder.follow rfl trivial)
    | some p => exact System.safe_unlink horder
  | unlinked gpio p prev =>
    rw [hcaller] at horder
    obtain ⟨front, back, hnodes, hp, hsome, hnext, hprev⟩ := horder.caller
    refine Safe.of_access hsome fun record hcell ↦ ?_
    rw [pointer_of_cell hcell] at hnext
    exact Safe.of_orderly (horder.follow rfl ⟨front, back, hnodes, hp, hsome, hnext, hprev⟩)
  | stopping gpio temp p prev =>
    rw [hcaller] at horder
    obtain ⟨front, back, hnodes, hp, hsome, hnext, hprev⟩ := horder.caller
    refine Safe.of_access hsome fun record hcell ↦ ?_
    exact Safe.of_store (horder.stop hcell)
  | finding gpio p work =>
    cases p with
    | none =>
      dsimp only
      split
      · exact Safe.of_orderly horder
      · rename_i hmalloc
        rw [hcaller] at horder
        obtain rfl : nodes = [] := horder.caller
        exact System.safe_first horder (System.cells_eq_none hmalloc)
    | some p => exact System.safe_find hcaller (hcaller ▸ horder)
  | found p work => exact System.safe_perform (hcaller ▸ horder)
  | calculating p =>
    rw [hcaller] at horder
    have hnode : p ∈ nodes := horder.caller
    refine Safe.of_access (horder.allocated p hnode) fun record hcell ↦ ?_
    exact Safe.of_store_same hcell (horder.follow rfl trivial)
  | creating p =>
    rw [hcaller] at horder
    dsimp only
    split
    · exact Safe.of_orderly horder.create
    · obtain ⟨hnode, hfree, -⟩ := horder.caller
      refine Safe.of_access (horder.allocated p hnode) fun record hcell ↦ ?_
      exact @Safe.of_store _ _ _ _ nodes (horder.mark hcell hfree false rfl trivial)
  | existing gpio p =>
    rw [hcaller] at horder
    cases p with
    | none => exact Safe.of_orderly (horder.follow rfl trivial)
    | some p =>
      obtain ⟨front, back, hnodes, hback⟩ := horder.caller
      obtain ⟨back, rfl⟩ := List.head?_eq_some_iff.mp hback.symm
      have hmem : p ∈ nodes := hnodes ▸ List.mem_append_right front List.mem_cons_self
      refine Safe.of_access (horder.allocated p hmem) fun record hcell ↦ ?_
      split
      · exact Safe.of_orderly (horder.follow rfl trivial)
      · have hnext : record.next = back.head? := by
          rw [← pointer_of_cell hcell, horder.pointer_eq hnodes]
        exact Safe.of_orderly (horder.follow rfl ⟨front ++ [p], back, by simp [hnodes], hnext⟩)

theorem System.safe_resume {system : System} (horder : system.Orderly) {index p : ℕ} {phase : Phase}
    (hthread : system.threads[index]? = some (p, phase)) :
    Safe (system.resume index p phase) := by
  obtain ⟨nodes, horder⟩ := horder
  have howned : (system.cells p).isSome := horder.owned (p, phase) (List.mem_of_getElem? hthread)
  cases phase with
  | testing =>
    refine Safe.of_access howned fun record hcell ↦ ?_
    refine Safe.of_orderly (horder.turn hthread fun _ hrunning ↦ ?_)
    have hloop : record.running = true :=
      Option.some.inj ((running_of_cell hcell).symm.trans hrunning)
    rw [hloop]
    rfl
  | high =>
    refine Safe.of_access howned fun record hcell ↦ ?_
    exact Safe.of_orderly (horder.turn hthread fun _ _ ↦ rfl)
  | low =>
    refine Safe.of_access howned fun record hcell ↦ ?_
    exact Safe.of_orderly (horder.turn hthread fun _ _ ↦ rfl)
  | cleaning =>
    refine Safe.of_access howned fun record hcell ↦ ?_
    exact Safe.of_orderly (horder.turn hthread fun hlooping _ ↦ hlooping)
  | freeing =>
    refine Safe.of_access howned fun record hcell ↦ ?_
    have hfree := horder.free hthread
    have hcells : Option.map Pwm.cell ∘ Function.update system.memory p none =
        Function.update system.cells p none := Function.comp_update ..
    rw [← hcells] at hfree
    exact Safe.of_orderly hfree

theorem System.call_sound {system : System} {nodes : List ℕ} (owners : List ℕ)
    (hpath : Path (pointer system.cells) system.pwm_list nodes none) (request : Request) :
    (system.call request).detached = none ∧
      (system.call request).Sound system.cells owners nodes := by
  have hfirst : system.pwm_list = nodes.head? := hpath.first_eq
  have hfinding : ∀ (gpio : ℕ) (work : Work),
      Caller.Sound system.cells owners nodes (.finding gpio system.pwm_list work) := by
    intro gpio work
    rw [hfirst]
    cases nodes with
    | nil => rfl
    | cons p back => exact ⟨[], back, rfl, fun node hmem ↦ absurd hmem List.not_mem_nil⟩
  cases request with
  | pwm_set_duty_cycle gpio dutycycle =>
    by_cases hrange : dutycycle < 0 ∨ 100 < dutycycle
    · rw [System.call, if_pos hrange]
      exact ⟨rfl, trivial⟩
    · rw [System.call, if_neg hrange]
      exact ⟨rfl, hfinding gpio _⟩
  | pwm_set_frequency gpio freq =>
    by_cases hrange : freq ≤ 0
    · rw [System.call, if_pos hrange]
      exact ⟨rfl, trivial⟩
    · rw [System.call, if_neg hrange]
      exact ⟨rfl, hfinding gpio _⟩
  | pwm_start gpio => exact ⟨rfl, hfinding gpio _⟩
  | pwm_stop gpio => exact ⟨rfl, [], nodes, rfl, hfirst, rfl⟩
  | pwm_exists gpio => exact ⟨rfl, [], nodes, rfl, hfirst⟩

/-- Whoever takes the step, there is no fault. -/
theorem System.safe_step {system : System} (horder : system.Orderly) (turn : Turn) :
    Safe (system.step turn) := by
  cases turn with
  | call request =>
    obtain ⟨nodes, horder⟩ := horder
    unfold System.step
    dsimp only
    split
    · rename_i hidle
      obtain ⟨hdetached, hsound⟩ := System.call_sound (system.threads.map Prod.fst) horder.path
        request
      rw [hidle] at horder
      exact Safe.of_orderly (horder.follow hdetached hsound)
    · exact Safe.of_orderly horder
  | program malloc created => exact System.safe_advance horder malloc created
  | thread index =>
    unfold System.step
    dsimp only
    split
    · rename_i hthread
      exact System.safe_resume horder hthread
    · exact ⟨system, rfl, horder⟩

theorem System.orderly_initial : System.initial.Orderly :=
  ⟨[], { path := rfl
         nodup := List.nodup_nil
         allocated := fun _ hmem ↦ absurd hmem List.not_mem_nil
         single := fun _ hmem ↦ absurd hmem List.not_mem_nil
         owners := List.nodup_nil
         owned := fun _ hmem ↦ absurd hmem List.not_mem_nil
         looping := fun _ hmem ↦ absurd hmem List.not_mem_nil
         stopped := fun _ hmem ↦ absurd hmem List.not_mem_nil
         caller := trivial }⟩

theorem System.safe_run {system : System} (horder : system.Orderly) (schedule : List Turn) :
    Safe (system.run schedule) := by
  induction schedule generalizing system with
  | nil => exact ⟨system, rfl, horder⟩
  | cons turn rest ih =>
    obtain ⟨next, hstep, hnext⟩ := System.safe_step horder turn
    rw [System.run, hstep]
    exact ih hnext

/-- However the calls of the program and its threads take turns, no record is used or freed after it
was freed, there is one record in the list for a pin, and one thread for a record. -/
theorem System.threads_safe (schedule : List Turn) :
    ∃ system : System, System.initial.run schedule = .ok system ∧ system.Orderly :=
  System.safe_run System.orderly_initial schedule

end PiFunk.RpiGpio
